import OumraHajj.Common.Base64
import OumraHajj.Services.Accounts

/-!
# Passwords and tokens

What the authentication uses of `bcrypt`, `jsonwebtoken` and `crypto`, as parameters, with what it
relies on.

* `Bcrypt`: a hash is made with a salt, and a comparison looks at the first 72 octets.
* `Jwt`: what was signed with a secret is verified with it, and `decode` reads it. A raw token is a string (`text`) of three
  parts: the header of HS256, the payload, which starts with the user (`debut`), and the signature.
  `verify` checks the signature; the expiration and the audience are checked by the model.

The tokens of one user agree on more than 72 octets, so bcrypt does not tell them apart
(`Crypto.compare_token`).
-/

namespace OumraHajj.Auth

/-- The octets of a text that bcrypt looks at. -/
def octets72 (x : String) : List UInt8 := (octets x).take 72

structure Bcrypt where
  /-- `bcrypt.hash` with the salt that it draws. -/
  hash : Nat → String → String
  compare : String → String → Bool
  compare_hash : ∀ x salt y, compare x (hash salt y) = true ↔ octets72 x = octets72 y

/-- `JwtPayload`. -/
structure JwtPayload where
  sub : UserId
  role : Role
  phone : Option String := none
  email : Option String := none
  deriving DecidableEq

/-- The claims of a token: its payload, its expiration in seconds, its audience and its
identifier. -/
structure Claims extends JwtPayload where
  exp : Int
  aud : Option String := none
  jti : Option String := none
  deriving DecidableEq

/-- The base64url of the header `{"alg":"HS256","typ":"JWT"}`. -/
def entete : String := "eyJhbGciOiJIUzI1NiIsInR5cCI6IkpXVCJ9"

/-- `{"sub":"<uuid>"`. -/
def debutOctets (uuid : String) : List UInt8 :=
  octets "\x7b\"sub\":\"" ++ octets uuid ++ octets "\""

theorem length_debutOctets {uuid : String} (h : (octets uuid).length = 36) :
    (debutOctets uuid).length = 3 * 15 := by
  have h8 : (octets "\x7b\"sub\":\"").length = 8 := by decide +kernel
  have h1 : (octets "\"").length = 1 := by decide +kernel
  rw [debutOctets, List.length_append, List.length_append, h, h8, h1]

structure Jwt where
  Token : Type
  decEq : DecidableEq Token
  sign : String → Claims → Token
  verify : String → Token → Option Claims
  decode : Token → Claims
  text : Token → String
  /-- The identifier of a user, as the database prints it. -/
  uuid : UserId → String
  payload : Claims → List UInt8
  signature : String → Claims → String
  verify_sign : ∀ secret c, verify secret (sign secret c) = some c
  decode_sign : ∀ secret c, decode (sign secret c) = c
  text_sign : ∀ secret c, text (sign secret c) = entete ++ "." ++
    String.ofList (Base64.encode (payload c)) ++ "." ++ signature secret c
  length_uuid : ∀ u, (octets (uuid u)).length = 36
  payload_sub : ∀ c, debutOctets (uuid c.sub) <+: payload c

instance (J : Jwt) : DecidableEq J.Token := J.decEq

instance decidableMemToken (J : Jwt) (t : J.Token) (l : List J.Token) : Decidable (t ∈ l) :=
  List.instDecidableMemOfLawfulBEq t l

/-- The parameters of the authentication (module doc). -/
structure Crypto extends Bcrypt, Jwt where
  toLowerCase : String → String
  /-- The hexadecimal SHA-256. -/
  sha256 : String → String
  /-- `new URL(path, base)` with a `hash`; `none`: the constructor throws. -/
  url : String → String → String → Option String

theorem octets_append (x y : String) : octets (x ++ y) = octets x ++ octets y := by
  simp [octets]

theorem length_octets_append {x y : String} {n m : Nat} (hx : (octets x).length = n)
    (hy : (octets y).length = m) : (octets (x ++ y)).length = n + m := by
  rw [octets_append, List.length_append, hx, hy]

/-- Every character has an octet. -/
theorem length_le_octets (x : String) : x.toList.length ≤ (octets x).length := by
  unfold octets
  induction x.toList with
  | nil => exact Nat.le_refl _
  | cons c l ih =>
    have hc : 0 < (String.utf8EncodeChar c).length :=
      List.length_pos_iff.mpr String.utf8EncodeChar_ne_nil
    rw [List.flatMap_cons, List.length_append, List.length_cons]
    omega

/-- Texts with a common part of 72 characters. -/
theorem octets72_of_prefix {p : String} (hp : 72 ≤ p.toList.length) (x y : String) :
    octets72 (p ++ x) = octets72 (p ++ y) := by
  have hl : 72 ≤ (octets p).length := Nat.le_trans hp (length_le_octets p)
  rw [octets72, octets72, octets_append, octets_append, List.take_append_of_le_length hl,
    List.take_append_of_le_length hl]

namespace Jwt

variable (J : Jwt)

/-- The part that the tokens of a user have in common. -/
def debut (u : UserId) : String :=
  entete ++ "." ++ String.ofList (Base64.encode (debutOctets (J.uuid u)))

theorem length_debut (u : UserId) : 72 ≤ (J.debut u).toList.length := by
  have h36 : (entete ++ ".").toList.length = 37 := by decide +kernel
  rw [debut, String.toList_append, String.toList_ofList, List.length_append,
    Base64.length_encode (length_debutOctets (J.length_uuid u)), h36]
  decide

/-- The text of a token starts with what it has in common with the others of its user. -/
theorem text_debut (secret : String) (c : Claims) :
    ∃ rest, J.text (J.sign secret c) = J.debut c.sub ++ rest := by
  obtain ⟨rest, hrest⟩ := J.payload_sub c
  refine ⟨String.ofList (Base64.encode rest) ++ "." ++ J.signature secret c, ?_⟩
  rw [J.text_sign, ← hrest, Base64.encode_append (length_debutOctets (J.length_uuid _)), debut,
    String.ofList_append]
  simp only [String.append_assoc]

end Jwt

namespace Crypto

variable (κ : Crypto)

/-- bcrypt does not tell the tokens of one user apart. -/
theorem compare_token {secret secret' : String} {c c' : Claims} (h : c.sub = c'.sub) (salt : Nat) :
    κ.compare (κ.text (κ.sign secret c)) (κ.hash salt (κ.text (κ.sign secret' c'))) = true := by
  obtain ⟨x, hx⟩ := κ.text_debut secret c
  obtain ⟨y, hy⟩ := κ.text_debut secret' c'
  rw [κ.compare_hash, hx, hy, h]
  exact octets72_of_prefix (κ.length_debut _) _ _

end Crypto

/-! ## An instance -/

namespace Exemple

/-- An octet as a character. -/
def caractere (b : UInt8) : Char := Char.ofNat b.toNat

theorem caractere_injective : Function.Injective caractere := by
  intro a b h
  have : ∀ n < 256, (Char.ofNat n).toNat = n := by decide +kernel
  have hn : a.toNat = b.toNat := by
    rw [← this a.toNat a.toNat_lt, ← this b.toNat b.toNat_lt]
    exact congrArg Char.toNat h
  exact UInt8.toNat_inj.mp hn

/-- A hash keeps its salt and the octets that bcrypt looks at. -/
def bcrypt : Bcrypt where
  hash salt x := String.ofList (Nat.digitChar (salt % 10) :: (octets72 x).map caractere)
  compare x h := h.toList.tail = (octets72 x).map caractere
  compare_hash x salt y := by
    rw [String.toList_ofList, List.tail_cons, decide_eq_true_eq]
    exact ⟨fun h => (List.map_injective_iff.mpr caractere_injective h).symm, fun h => by rw [h]⟩

/-- The identifier ends with twelve digits. -/
def uuid (u : UserId) : String :=
  "00000000-0000-4000-8000-" ++ String.ofList
    (((List.range 12).map fun i => u / 10 ^ (11 - i)).map fun n => Nat.digitChar (n % 10))

theorem octets_chiffres (l : List Nat) :
    (octets (String.ofList (l.map fun n => Nat.digitChar (n % 10)))).length = l.length := by
  have hd : ∀ d < 10, (String.utf8EncodeChar (Nat.digitChar d)).length = 1 := by decide +kernel
  rw [octets, String.toList_ofList]
  induction l with
  | nil => rfl
  | cons n l ih =>
    rw [List.map_cons, List.flatMap_cons, List.length_append, ih,
      hd _ (Nat.mod_lt _ (by decide)), List.length_cons, Nat.add_comm]

theorem length_uuid (u : UserId) : (octets (uuid u)).length = 36 := by
  have h12 := octets_chiffres ((List.range 12).map fun i => u / 10 ^ (11 - i))
  rw [List.length_map, List.length_range] at h12
  exact length_octets_append (n := 24) (by decide +kernel) h12

/-- The JSON of the claims, less what no test reads. -/
def payload (c : Claims) : List UInt8 :=
  debutOctets (uuid c.sub) ++ octets (",\"exp\":" ++ toString c.exp ++ "\x7d")

/-- A token keeps its secret and its claims. -/
def jwt : Jwt where
  Token := String × Claims
  decEq := inferInstance
  sign secret c := (secret, c)
  verify secret t := if t.1 = secret then some t.2 else none
  decode t := t.2
  text t := entete ++ "." ++ String.ofList (Base64.encode (payload t.2)) ++ "." ++ t.1
  uuid := uuid
  payload := payload
  signature secret _ := secret
  verify_sign _ _ := if_pos rfl
  decode_sign _ _ := rfl
  text_sign _ _ := rfl
  length_uuid := length_uuid
  payload_sub _ := List.prefix_append _ _

end Exemple

/-- The parameters of the tests. -/
def Crypto.exemple : Crypto where
  toBcrypt := Exemple.bcrypt
  toJwt := Exemple.jwt
  toLowerCase := id
  sha256 := id
  url path base hash := some (base ++ path ++ "#" ++ hash)

end OumraHajj.Auth
