import OumraHajj.Storage.Tokens

/-!
# Stored documents are opened

The name of a document has its type and the extension of its original name. The link to it opens it until it
expires if and only if `FILE_NAME_PATTERN` accepts the name (`ouvre_iff_pattern`): the types with an underscore,
and extensions of other characters than ASCII letters and digits, it refuses (`ouvre_iff`).
-/

namespace OumraHajj.Storage

open LocalDiskStorageProvider

/-! ## Names -/

/-- A name with a dot is accepted if letters are before it, and letters after it. -/
theorem fileNamePattern_append {nom extension : List Char} {texte : String} (hdot : '.' ∉ nom)
    (htexte : texte.toList = nom ++ '.' :: extension) : fileNamePattern texte = true ↔
      (nom ≠ [] ∧ ∀ c ∈ nom, lettre c = true) ∧ extension ≠ [] ∧ ∀ c ∈ extension, c.isAlphanum = true := by
  have hlettre : lettre '.' = false := by decide
  unfold fileNamePattern
  rw [htexte]
  by_cases hnom : ∀ c ∈ nom, lettre c = true
  · have hdrop : (nom ++ '.' :: extension).dropWhile lettre = '.' :: extension := by
      rw [List.dropWhile_append_of_pos hnom, List.dropWhile_cons_of_neg (by simp [hlettre])]
    have htake : (nom ++ '.' :: extension).takeWhile lettre = nom := by
      rw [List.takeWhile_append_of_pos hnom, List.takeWhile_cons_of_neg (by simp [hlettre]),
        List.append_nil]
    rw [hdrop, htake, and_iff_left hnom]
    simp [and_assoc]
  · refine iff_of_false ?_ fun h => hnom h.1.2
    obtain ⟨c, reste, hreste⟩ := List.exists_cons_of_ne_nil (mt List.dropWhile_eq_nil_iff.mp hnom)
    have hc : c ≠ '.' := by
      rintro rfl
      exact hdot ((List.dropWhile_suffix _).subset (hreste ▸ List.mem_cons_self))
    rw [List.dropWhile_append, hreste]
    simp [hc]

theorem fileNamePattern_of_notMem {texte : String} (h : '.' ∉ texte.toList) :
    fileNamePattern texte = false := by
  unfold fileNamePattern
  split
  · next extension heq =>
    exact absurd ((List.dropWhile_suffix _).subset (heq ▸ List.mem_cons_self)) h
  · rfl

/-- An extension starts with the only dot in it. -/
theorem extname_cases (path : String) :
    extname path = "" ∨ ∃ extension, (extname path).toList = '.' :: extension := by
  unfold extname
  dsimp only
  split
  · exact .inl rfl
  · split
    · exact .inl rfl
    · exact .inr ⟨_, String.toList_ofList⟩

theorem retirer_append {motif : List Char} (hne : motif ≠ []) (l : List Char) :
    retirer motif (motif ++ l) = l := by
  obtain ⟨c, motif, rfl⟩ := List.exists_cons_of_ne_nil hne
  have hprefix : (c :: motif).isPrefixOf (c :: (motif ++ l)) = true :=
    List.isPrefixOf_iff_prefix.mpr ⟨l, rfl⟩
  rw [List.cons_append, retirer, if_pos hprefix]
  exact List.drop_left

section Ouvre

variable (N : Node) (signingSecret : String) (ownerId randomUUID : Uuid) (kind : DocumentKind)
  (file : StoredFile) (disque : Disque) (maintenant : Time)

/-- What is stored is opened with the link to its reference, until it expires. -/
def Ouvre : Prop :=
  ∃ nom token, (store ownerId kind.type file randomUUID disque).2 = disque ++ [(nom, file.buffer)] ∧
    (getAccessUrl N signingSecret (store ownerId kind.type file randomUUID disque).1 maintenant).url =
      "/api/v1/documents/files/" ++ token ∧
    ∀ instant, resolveSignedToken N signingSecret token instant = .ok
      (if instant ≤ (getAccessUrl N signingSecret
          (store ownerId kind.type file randomUUID disque).1 maintenant).expiresAt then some (.str nom)
        else none)

/-- The extension of the original name is a dot and ASCII letters and digits. -/
def ExtensionSimple (originalName : String) : Prop :=
  ∃ extension, extname originalName = String.ofList ('.' :: extension) ∧ extension ≠ [] ∧
    ∀ c ∈ extension, c.isAlphanum = true

/-- The condition on what is stored (module doc). -/
def Accepte (originalName : String) : Prop :=
  '_' ∉ kind.type.toList ∧ ExtensionSimple originalName

/-- The name of a document. -/
def nomDe (ownerId randomUUID : Uuid) (kind : DocumentKind) (originalName : String) : String :=
  ownerId.texte ++ "-" ++ kind.type ++ "-" ++ randomUUID.texte ++ extname originalName

theorem lettre_uuid (u : Uuid) : ∀ c ∈ u.texte.toList, lettre c = true := by
  intro c hc
  rcases u.chiffres c hc with rfl | hdigit
  · rfl
  · have hall : hexDigits.all lettre = true := by decide
    exact List.all_eq_true.mp hall c hdigit

theorem forall_lettre_type : (∀ c ∈ kind.type.toList, lettre c = true) ↔ '_' ∉ kind.type.toList := by
  rw [← List.all_eq_true]
  cases kind with
  | pilgrim type => cases type <;> decide
  | agencyLegal => decide

theorem notMem_type : '.' ∉ kind.type.toList := by
  cases kind with
  | pilgrim type => cases type <;> decide
  | agencyLegal => decide

/-- The characters of a name before its extension. -/
def racine : List Char :=
  ownerId.texte.toList ++ '-' :: kind.type.toList ++ '-' :: randomUUID.texte.toList

theorem nomDe_toList (originalName : String) : (nomDe ownerId randomUUID kind originalName).toList =
    racine ownerId randomUUID kind ++ (extname originalName).toList := by
  have hdash : "-".toList = ['-'] := rfl
  simp only [nomDe, racine, String.toList_append, hdash, List.append_assoc, List.cons_append,
    List.nil_append]

theorem notMem_racine : '.' ∉ racine ownerId randomUUID kind := by
  have hownerId : '.' ∉ ownerId.texte.toList := ownerId.notMem (by decide)
  have hrandom : '.' ∉ randomUUID.texte.toList := randomUUID.notMem (by decide)
  simp [racine, hownerId, hrandom, notMem_type]

theorem forall_lettre_racine :
    (∀ c ∈ racine ownerId randomUUID kind, lettre c = true) ↔ '_' ∉ kind.type.toList := by
  have hdash : lettre '-' = true := by decide
  rw [← forall_lettre_type]
  simp only [racine, List.forall_mem_append, List.forall_mem_cons, hdash, true_and]
  exact ⟨fun h => h.1.2, fun h => ⟨⟨lettre_uuid ownerId, h⟩, lettre_uuid randomUUID⟩⟩

theorem fileNamePattern_nomDe (originalName : String) :
    fileNamePattern (nomDe ownerId randomUUID kind originalName) = true ↔
      Accepte kind originalName := by
  have hracine := notMem_racine ownerId randomUUID kind
  have hne : racine ownerId randomUUID kind ≠ [] := by simp [racine]
  rcases extname_cases originalName with h | ⟨extension, h⟩
  · have hnom : '.' ∉ (nomDe ownerId randomUUID kind originalName).toList := by
      rw [nomDe_toList, h]
      simpa using hracine
    rw [fileNamePattern_of_notMem hnom]
    refine iff_of_false Bool.false_ne_true ?_
    rintro ⟨-, extension, hextension, -⟩
    rw [h] at hextension
    simpa using congrArg String.toList hextension
  · have hnom := nomDe_toList ownerId randomUUID kind originalName
    rw [h] at hnom
    have hsimple : ExtensionSimple originalName ↔ extension ≠ [] ∧ ∀ c ∈ extension, c.isAlphanum = true := by
      constructor
      · rintro ⟨extension', h', hne', hall⟩
        rw [h', String.toList_ofList] at h
        obtain rfl := List.tail_eq_of_cons_eq h
        exact ⟨hne', hall⟩
      · exact fun hall => ⟨extension, String.toList_injective (by rw [h, String.toList_ofList]), hall⟩
    rw [fileNamePattern_append hracine hnom, forall_lettre_racine, and_iff_right hne, Accepte, hsimple]

/-- The link to the reference of a name. -/
theorem getAccessUrl_eq (nom : String) :
    getAccessUrl N signingSecret ("local://documents/" ++ nom) maintenant =
      { url := "/api/v1/documents/files/" ++ sign N signingSecret ⟨nom, maintenant + accessUrlTtlMs⟩
        expiresAt := maintenant + accessUrlTtlMs } := by
  unfold getAccessUrl
  rw [String.toList_append, retirer_append (by decide), String.ofList_toList]

theorem store_eq : store ownerId kind.type file randomUUID disque =
    ("local://documents/" ++ nomDe ownerId randomUUID kind file.originalName,
      disque ++ [(nomDe ownerId randomUUID kind file.originalName, file.buffer)]) := by
  unfold store nomDe
  rfl

/-- A document is opened if and only if its name is accepted. -/
theorem ouvre_iff_pattern : Ouvre N signingSecret ownerId randomUUID kind file disque maintenant ↔
    fileNamePattern (nomDe ownerId randomUUID kind file.originalName) = true := by
  unfold Ouvre
  rw [store_eq]
  dsimp only
  rw [getAccessUrl_eq]
  dsimp only
  constructor
  · rintro ⟨nom, token, -, hurl, hresolve⟩
    obtain rfl := (String.append_right_inj _).mp hurl
    have h := hresolve (maintenant + accessUrlTtlMs)
    rw [resolve_sign, if_neg (lt_irrefl _), if_pos le_rfl] at h
    by_contra hpattern
    rw [if_neg hpattern] at h
    cases h
  · intro hpattern
    refine ⟨_, _, rfl, rfl, fun instant => ?_⟩
    rw [resolve_sign, if_pos hpattern]
    by_cases h : instant ≤ maintenant + accessUrlTtlMs
    · rw [if_pos h, if_neg (not_lt.mpr h)]
    · rw [if_neg h, if_pos (not_le.mp h)]

/-- **A stored document is opened until its link expires if and only if its type has no underscore and its
original name a plain extension.** -/
theorem ouvre_iff : Ouvre N signingSecret ownerId randomUUID kind file disque maintenant ↔
    Accepte kind file.originalName := by
  rw [ouvre_iff_pattern, fileNamePattern_nomDe]

/-- A ticket is never opened: the name of its type has an underscore. -/
theorem billet_refuse : ¬ ∀ (N : Node) (signingSecret : String) (ownerId randomUUID : Uuid)
    (kind : DocumentKind) (file : StoredFile) (disque : Disque) (maintenant : Time),
      Ouvre N signingSecret ownerId randomUUID kind file disque maintenant := by
  intro h
  have hnom : fileNamePattern (nomDe Uuid.zero Uuid.zero (.pilgrim .flightTicket) "billet.pdf") = false := by
    decide +kernel
  have hpattern := (ouvre_iff_pattern Node.vide "" Uuid.zero Uuid.zero (.pilgrim .flightTicket)
    ⟨[], "billet.pdf"⟩ [] 0).mp (h _ _ _ _ _ _ _ _)
  rw [hnom] at hpattern
  cases hpattern

end Ouvre

end OumraHajj.Storage
