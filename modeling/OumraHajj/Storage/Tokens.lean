import OumraHajj.Storage.Service

/-!
# Tokens

A signed token is read back: until it expires it gives its name, if this is one of a file, and nothing after
(`resolve_sign`). `resolveSignedToken` refuses a malformed token, or throws an exception, and `refuse_iff`
says which.
-/

namespace OumraHajj.Storage

open Rfc8259 (Value Lexes Stands)

/-! ## What `JSON.stringify` writes -/

theorem hexValue_digitChar {n : Nat} (h : n < 16) : Rfc8259.hexValue (Nat.digitChar n) = some n := by
  have hall : ∀ m < 16, Rfc8259.hexValue (Nat.digitChar m) = some m := by decide
  exact hall n h

theorem stands_quoteChar (c : Char) : Stands (Audit.quoteChar c) c := by
  unfold Audit.quoteChar
  by_cases hquote : c = '"'
  · subst hquote
    exact Rfc8259.stands_escape rfl
  by_cases hbackslash : c = '\\'
  · subst hbackslash
    exact Rfc8259.stands_escape rfl
  rw [if_neg hquote, if_neg hbackslash]
  split
  · next h => exact h ▸ Rfc8259.stands_escape rfl
  split
  · next h => exact h ▸ Rfc8259.stands_escape rfl
  split
  · next h => exact h ▸ Rfc8259.stands_escape rfl
  split
  · next h => exact h ▸ Rfc8259.stands_escape rfl
  split
  · next h => exact h ▸ Rfc8259.stands_escape rfl
  split
  · next hlt =>
    have hc : 16 * (16 * (16 * 0 + 0) + c.toNat / 16) + c.toNat % 16 = c.toNat := by omega
    have h := Rfc8259.stands_code (a := '0') (b := '0') (i := 0) (j := 0) rfl rfl
      (hexValue_digitChar (n := c.toNat / 16) (by omega))
      (hexValue_digitChar (n := c.toNat % 16) (by omega)) (by omega)
    rwa [hc, Char.ofNat_toNat] at h
  · next hlt => exact Rfc8259.stands_self hquote hbackslash (Nat.le_of_not_lt hlt)

theorem lexes_quote (s : String) : Lexes (Audit.quote s).toList [.scalar (.str s)] := by
  have hquote : (Audit.quote s).toList = '"' :: ((s.toList.map Audit.quoteChar).flatten ++ ['"']) := by
    have h : "\"".toList = ['"'] := rfl
    rw [Audit.quote, String.toList_append, String.toList_append, h, String.toList_ofList,
      List.flatMap_def]
    rfl
  rw [hquote]
  refine Rfc8259.lexes_str ?_
  rw [List.forall₂_map_left_iff, List.forall₂_same]
  exact fun c _ => stands_quoteChar c

theorem lexes_entier (n : Int) : Lexes (entier n).toList [.scalar (.num n)] := by
  have hn : (n : ℚ).num = n := rfl
  rw [entier, hn, toString_toList]
  split
  · next h =>
    have hcast : (n.toNat : ℚ) = n := by exact_mod_cast Int.toNat_of_nonneg h
    have hlexes := Rfc8259.lexes_integer false n.toNat
    rw [if_neg Bool.false_ne_true, hcast] at hlexes
    exact hlexes
  · next h =>
    have hcast : -((-n).toNat : ℚ) = n := by
      have := Int.toNat_of_nonneg (a := -n) (by omega)
      rw [neg_eq_iff_eq_neg]
      exact_mod_cast this
    have hlexes := Rfc8259.lexes_integer true (-n).toNat
    rw [if_pos rfl, hcast] at hlexes
    exact hlexes

/-- **An object of scalars is read back.** -/
theorem parse_stringify {champs : Audit.AuditMetadata} {valeurs : List (String × Value)}
    (h : List.Forall₂ (fun x m => x.1 = m.1 ∧ Lexes (x.2.stringify entier).toList [.scalar m.2])
      champs valeurs) (hne : valeurs ≠ []) :
    Rfc8259.parse (Audit.stringify entier champs) = some (.obj valeurs) := by
  have hmembres : List.Forall₂ (fun w m => Lexes w (Rfc8259.memberTokens m))
      (champs.map fun x => (Audit.quote x.1 ++ ":" ++ x.2.stringify entier).toList) valeurs := by
    rw [List.forall₂_map_left_iff]
    refine h.imp fun x m hx => ?_
    have hcolon : ":".toList = [':'] := rfl
    rw [String.toList_append, String.toList_append, hcolon, List.append_assoc]
    exact Rfc8259.lexes_member (hx.1 ▸ lexes_quote x.1) hx.2
  refine Rfc8259.parse_object ?_ hmembres hne
  have hopen : "\x7b".toList = ['\x7b'] := rfl
  have hclose : "\x7d".toList = ['\x7d'] := rfl
  have hcomma : ",".toList = [','] := rfl
  rw [Audit.stringify, String.toList_append, String.toList_append, String.toList_intercalate,
    List.map_map, hopen, hclose, hcomma, List.append_assoc]
  rfl

theorem decoder_encoder (texte : String) : decoder (encoder texte) = texte := by
  rw [decoder, encoder, String.toList_ofList, Base64.decode_encode, Utf8.decode_octets,
    String.ofList_toList]

/-! ## What is signed -/

open LocalDiskStorageProvider

section Signature

variable {N : Node} {signingSecret : String} {decoded parsed : Value} {instant : Time}

theorem obj_ne_null (ms : List (String × Value)) : Value.obj ms ≠ .null := nofun

/-- What is answered for a text and a signature that can be compared. -/
theorem resolveDecoded_eq {p : String} {l : List UInt8} (hp : decoded.get "p" = some (.str p))
    (hl : bufferFrom N (decoded.get "h") = .ok l) : resolveDecoded N signingSecret decoded instant =
      if l = octets (N.hmacHex signingSecret p) then
        match Rfc8259.parse p with
        | none => .ok none
        | some parsed => resolvePayload N parsed instant
      else .ok none := by
  have hstart : resolveDecoded N signingSecret decoded instant =
      if l.length ≠ (octets (N.hmacHex signingSecret p)).length then .ok none
      else if l ≠ octets (N.hmacHex signingSecret p) then .ok none
      else match Rfc8259.parse p with
        | none => .ok none
        | some parsed => resolvePayload N parsed instant := by
    unfold resolveDecoded
    rw [hp, hl]
    rfl
  rw [hstart]
  by_cases h : l = octets (N.hmacHex signingSecret p)
  · rw [if_neg (not_not_intro (congrArg List.length h)), if_neg (not_not_intro h), if_pos h]
  · rw [if_pos h, if_neg h, ite_self]

theorem resolvePayload_eq (hnull : parsed ≠ .null) : resolvePayload N parsed instant =
    match inferieur N (parsed.get "e") instant with
    | none => .error "TypeError"
    | some true => .ok none
    | some false => fileNameOf N (parsed.get "f") := by
  cases parsed with
  | null => exact absurd rfl hnull
  | _ => rfl

theorem resolve_eq {token : String} (h : Rfc8259.parse (decoder token) = some decoded)
    (hnull : decoded ≠ .null) : resolveSignedToken N signingSecret token instant =
      resolveDecoded N signingSecret decoded instant := by
  unfold resolveSignedToken
  rw [h]
  cases decoded with
  | null => exact absurd rfl hnull
  | _ => rfl

/-- The payload of a token. -/
def serialized (payload : SignedPayload) : String :=
  Audit.stringify entier [("f", .str payload.f), ("e", .num payload.e)]

theorem parse_serialized (payload : SignedPayload) : Rfc8259.parse (serialized payload) =
    some (.obj [("f", .str payload.f), ("e", .num payload.e)]) :=
  parse_stringify (.cons ⟨rfl, lexes_quote _⟩ (.cons ⟨rfl, lexes_entier _⟩ .nil)) (List.cons_ne_nil _ _)

theorem parse_sign (payload : SignedPayload) :
    Rfc8259.parse (decoder (sign N signingSecret payload)) = some (.obj
      [("p", .str (serialized payload)), ("h", .str (N.hmacHex signingSecret (serialized payload)))]) := by
  rw [sign, decoder_encoder]
  exact parse_stringify (.cons ⟨rfl, lexes_quote _⟩ (.cons ⟨rfl, lexes_quote _⟩ .nil))
    (List.cons_ne_nil _ _)

/-- **A signed token is read back**: its name until it expires, if it is one of a file. -/
theorem resolve_sign (payload : SignedPayload) (instant : Time) :
    resolveSignedToken N signingSecret (sign N signingSecret payload) instant =
      .ok (if payload.e < instant then none
        else if fileNamePattern payload.f then some (.str payload.f) else none) := by
  have hexpire : inferieur N (some (.num payload.e)) instant = some (decide (payload.e < instant)) := by
    rw [inferieur]
    exact congrArg some (decide_eq_decide.mpr Rat.intCast_lt_intCast)
  rw [resolve_eq (parse_sign payload) (obj_ne_null _), resolveDecoded_eq rfl rfl, if_pos rfl,
    parse_serialized]
  show resolvePayload N _ instant = _
  rw [resolvePayload_eq (obj_ne_null _)]
  have he (a b : Value) : (Value.obj [("f", a), ("e", b)]).get "e" = some b := rfl
  rw [he, hexpire]
  by_cases h : payload.e < instant
  · rw [if_pos h, decide_eq_true h]
  · rw [if_neg h, decide_eq_false h]
    rfl

end Signature

/-! ## What is refused -/

section Refus

variable (N : Node) (signingSecret : String)

/-- The text and the signature can be compared. -/
structure Enveloppe (decoded : Value) : Prop where
  texte : ∃ p, decoded.get "p" = some (.str p)
  signature : ∃ l, bufferFrom N (decoded.get "h") = .ok l

/-- The expiration can be compared, and what is then read as a name is a string. -/
structure Charge (parsed : Value) (instant : Time) : Prop where
  ne_null : parsed ≠ .null
  expiration : ∃ expire, inferieur N (parsed.get "e") instant = some expire
  nom : inferieur N (parsed.get "e") instant = some false → ∀ f, parsed.get "f" = some f →
    ∃ texte, texteDe N f = some texte ∧ (fileNamePattern texte = true → ∃ nom, f = .str nom)

/-- The condition on a token (module doc). -/
def Convient (token : String) (instant : Time) : Prop :=
  ∀ decoded, Rfc8259.parse (decoder token) = some decoded → decoded ≠ .null →
    Enveloppe N decoded ∧ ∀ p parsed, decoded.get "p" = some (.str p) →
      bufferFrom N (decoded.get "h") = .ok (octets (N.hmacHex signingSecret p)) →
        Rfc8259.parse p = some parsed → Charge N parsed instant

/-- The token has the signature of a text with the name, which has not expired. -/
def Signe (token nom : String) (instant : Time) : Prop :=
  ∃ decoded p parsed, Rfc8259.parse (decoder token) = some decoded ∧ decoded.get "p" = some (.str p) ∧
    bufferFrom N (decoded.get "h") = .ok (octets (N.hmacHex signingSecret p)) ∧
    Rfc8259.parse p = some parsed ∧ parsed.get "f" = some (.str nom) ∧
    inferieur N (parsed.get "e") instant = some false

/-- The token is refused, or gives a name that is signed and has not expired. -/
def RefuseOuSigne (token : String) (instant : Time) : Prop :=
  resolveSignedToken N signingSecret token instant = .ok none ∨
    ∃ nom, resolveSignedToken N signingSecret token instant = .ok (some (.str nom)) ∧
      Signe N signingSecret token nom instant

/-- The answer is `null` or a text. -/
def Repond (r : Except String (Option Value)) : Prop := r = .ok none ∨ ∃ nom, r = .ok (some (.str nom))

variable {N signingSecret} {token : String} {instant : Time} {decoded parsed : Value}

theorem not_repond_error (e : String) : ¬ Repond (.error e) := by
  rintro (h | ⟨nom, h⟩)
  · cases h
  · cases h

theorem repond_fileNameOf {f : Option Value} : Repond (fileNameOf N f) ↔ ∀ v, f = some v →
    ∃ texte, texteDe N v = some texte ∧ (fileNamePattern texte = true → ∃ nom, v = .str nom) := by
  rcases f with _ | v
  · exact iff_of_true (.inl rfl) nofun
  rcases htexte : texteDe N v with _ | texte
  · have herror : fileNameOf N (some v) = .error "TypeError" := by rw [fileNameOf, htexte]
    rw [herror]
    refine iff_of_false (not_repond_error _) fun h => ?_
    obtain ⟨texte, h, -⟩ := h v rfl
    rw [htexte] at h
    cases h
  · have hok : fileNameOf N (some v) = .ok (if fileNamePattern texte then some v else none) := by
      rw [fileNameOf, htexte]
    rw [hok]
    by_cases hpattern : fileNamePattern texte = true
    · simp [Repond, htexte, hpattern]
    · simp [Repond, htexte, hpattern]

theorem repond_payload : Repond (resolvePayload N parsed instant) ↔ Charge N parsed instant := by
  by_cases hnull : parsed = .null
  · subst hnull
    exact iff_of_false (not_repond_error _) fun h => h.ne_null rfl
  rw [resolvePayload_eq hnull]
  rcases he : inferieur N (parsed.get "e") instant with _ | _ | _
  · refine iff_of_false (not_repond_error _) fun h => ?_
    obtain ⟨expire, h⟩ := h.expiration
    rw [he] at h
    cases h
  · exact repond_fileNameOf.trans ⟨fun h => ⟨hnull, ⟨_, he⟩, fun _ => h⟩, fun h => h.nom he⟩
  · refine iff_of_true (.inl rfl) ⟨hnull, ⟨_, he⟩, fun h => ?_⟩
    rw [he] at h
    cases h

theorem enveloppe_of_ok {r : Option Value} (h : resolveDecoded N signingSecret decoded instant = .ok r) :
    Enveloppe N decoded := by
  unfold resolveDecoded at h
  constructor
  · unfold computeHmac at h
    split at h
    · next p hp => exact ⟨p, hp⟩
    · cases h
  · rcases hl : bufferFrom N (decoded.get "h") with e | l
    · rw [hl] at h
      cases hp : computeHmac N signingSecret (decoded.get "p") with
      | error e' =>
        rw [hp] at h
        cases h
      | ok hmac =>
        rw [hp] at h
        cases h
    · exact ⟨l, rfl⟩

theorem repond_decoded : Repond (resolveDecoded N signingSecret decoded instant) ↔
    Enveloppe N decoded ∧ ∀ p parsed, decoded.get "p" = some (.str p) →
      bufferFrom N (decoded.get "h") = .ok (octets (N.hmacHex signingSecret p)) →
        Rfc8259.parse p = some parsed → Charge N parsed instant := by
  constructor
  · intro h
    refine ⟨?_, fun p parsed hp hl hparsed => ?_⟩
    · rcases h with h | ⟨nom, h⟩
      · exact enveloppe_of_ok h
      · exact enveloppe_of_ok h
    · rw [resolveDecoded_eq hp hl, if_pos rfl, hparsed] at h
      exact repond_payload.mp h
  · rintro ⟨⟨⟨p, hp⟩, ⟨l, hl⟩⟩, h⟩
    rw [resolveDecoded_eq hp hl]
    split
    · next heq =>
      rcases hparsed : Rfc8259.parse p with _ | parsed
      · exact .inl rfl
      · exact repond_payload.mpr (h p parsed hp (heq ▸ hl) hparsed)
    · exact .inl rfl

/-- What is answered for a token that is no object. -/
theorem resolve_eq_none (h : ∀ decoded, Rfc8259.parse (decoder token) = some decoded → decoded = .null) :
    resolveSignedToken N signingSecret token instant = .ok none := by
  unfold resolveSignedToken
  rcases hdecoded : Rfc8259.parse (decoder token) with _ | decoded
  · rfl
  · rw [h decoded hdecoded]

theorem repond_iff : Repond (resolveSignedToken N signingSecret token instant) ↔
    Convient N signingSecret token instant := by
  unfold Convient
  by_cases h : ∃ decoded, Rfc8259.parse (decoder token) = some decoded ∧ decoded ≠ .null
  · obtain ⟨decoded, hdecoded, hnull⟩ := h
    rw [resolve_eq hdecoded hnull, repond_decoded, hdecoded]
    constructor
    · rintro h _ ⟨⟩ -
      exact h
    · exact fun h => h decoded rfl hnull
  · have hrefus : ∀ decoded, Rfc8259.parse (decoder token) = some decoded → decoded = .null :=
      fun decoded hdecoded => by_contra fun hnull => h ⟨decoded, hdecoded, hnull⟩
    rw [resolve_eq_none hrefus]
    exact iff_of_true (.inl rfl) fun decoded hdecoded hnull => absurd (hrefus decoded hdecoded) hnull

/-- The tokens of the server are not malformed. -/
theorem convient_sign (payload : SignedPayload) (instant : Time) :
    Convient N signingSecret (sign N signingSecret payload) instant := by
  rw [← repond_iff, resolve_sign]
  split
  · exact .inl rfl
  split
  · exact .inr ⟨_, rfl⟩
  · exact .inl rfl

theorem fileNameOf_eq_some {f : Option Value} {v : Value} (h : fileNameOf N f = .ok (some v)) :
    f = some v := by
  rcases f with _ | f
  · cases h
  unfold fileNameOf at h
  dsimp only at h
  split at h
  · cases h
  · split at h
    · exact Except.ok.inj h
    · cases h

/-- What is signed for a name that is answered. -/
theorem payload_of_resolve {v : Value} (h : resolvePayload N parsed instant = .ok (some v)) :
    parsed.get "f" = some v ∧ inferieur N (parsed.get "e") instant = some false := by
  by_cases hnull : parsed = .null
  · subst hnull
    cases h
  rw [resolvePayload_eq hnull] at h
  rcases he : inferieur N (parsed.get "e") instant with _ | _ | _
  · rw [he] at h
    cases h
  · rw [he] at h
    exact ⟨fileNameOf_eq_some h, rfl⟩
  · rw [he] at h
    cases h

/-- A name that is answered is signed, and has not expired. -/
theorem signe_of_resolve {nom : String}
    (h : resolveSignedToken N signingSecret token instant = .ok (some (.str nom))) :
    Signe N signingSecret token nom instant := by
  by_cases hobject : ∃ decoded, Rfc8259.parse (decoder token) = some decoded ∧ decoded ≠ .null
  · obtain ⟨decoded, hdecoded, hnull⟩ := hobject
    rw [resolve_eq hdecoded hnull] at h
    obtain ⟨⟨p, hp⟩, ⟨l, hl⟩⟩ := enveloppe_of_ok h
    rw [resolveDecoded_eq hp hl] at h
    split at h
    · next heq =>
      rcases hparsed : Rfc8259.parse p with _ | parsed
      · rw [hparsed] at h
        cases h
      · rw [hparsed] at h
        obtain ⟨hf, he⟩ := payload_of_resolve h
        exact ⟨decoded, p, parsed, hdecoded, hp, heq ▸ hl, hparsed, hf, he⟩
    · cases h
  · rw [resolve_eq_none fun decoded hdecoded =>
      by_contra fun hnull => hobject ⟨decoded, hdecoded, hnull⟩] at h
    cases h

/-- A runtime, for tokens of which nothing is signed or converted. -/
def Node.vide : Node where
  hmacHex _ _ := ""
  nombre _ := ""
  avant _ _ := false
  fromObject _ := .error "ERR_INVALID_ARG_TYPE"

end Refus

end OumraHajj.Storage
