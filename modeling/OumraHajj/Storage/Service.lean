import OumraHajj.Audit.Service
import OumraHajj.Common.Rfc8259
import OumraHajj.Common.Utf8
import OumraHajj.Common.Uuid

/-!
# Stored files

`LocalDiskStorageProvider` (`src/modules/storage/local-disk-storage-provider.service.ts`): the documents on
the disk of the server, and the links to them, which are signed and expire. What the disk refuses to write has
no reference.

`Node` is what the runtime computes: `JSON.parse` makes any value of a token, and the code converts it as
JavaScript does. `none` is `undefined` where a value is read, and `null` in what `resolveSignedToken` returns;
`Except.error` is an exception that is not caught.
-/

namespace OumraHajj.Storage

open Rfc8259 (Value)

structure Node where
  /-- `createHmac('sha256', secret).update(texte).digest('hex')`. -/
  hmacHex : String → String → String
  /-- `String` of a number. -/
  nombre : ℚ → String
  /-- `Number(texte) < instant`. -/
  avant : String → Time → Bool
  /-- `Buffer.from` of an array or an object. -/
  fromObject : Value → Except String (List UInt8)

/-! ## Conversions -/

section Conversions

variable (N : Node)

mutual

/-- `String(valeur)`; `none`: an object whose `toString` is no function. -/
def texteDe : Value → Option String
  | .null => some "null"
  | .bool b => some (if b then "true" else "false")
  | .num x => some (N.nombre x)
  | .str s => some s
  | .arr vs => (textesDe vs).map ",".intercalate
  | .obj ms => if ms.any (·.1 = "toString") then none else some "[object Object]"

/-- The texts of the elements of an array. -/
def textesDe : List Value → Option (List String)
  | [] => some []
  | .null :: vs => (textesDe vs).map ("" :: ·)
  | v :: vs => (texteDe v).bind fun texte => (textesDe vs).map (texte :: ·)

end

/-- `valeur < instant`. -/
def inferieur (valeur : Option Value) (instant : Time) : Option Bool :=
  match valeur with
  | none => some false
  | some .null => some (0 < instant)
  | some (.bool b) => some ((if b then 1 else 0) < instant)
  | some (.num x) => some (x < instant)
  | some v => (texteDe N v).map fun texte => N.avant texte instant

/-- `Buffer.from(valeur)`. -/
def bufferFrom : Option Value → Except String (List UInt8)
  | some (.str s) => .ok (octets s)
  | some (.arr vs) => N.fromObject (.arr vs)
  | some (.obj ms) => N.fromObject (.obj ms)
  | _ => .error "ERR_INVALID_ARG_TYPE"

end Conversions

/-- `[a-zA-Z0-9-]`. -/
def lettre (c : Char) : Bool := c.isAlphanum || c = '-'

/-- `FILE_NAME_PATTERN`. -/
def fileNamePattern (texte : String) : Bool :=
  match texte.toList.dropWhile lettre with
  | '.' :: extension =>
    !(texte.toList.takeWhile lettre).isEmpty && !extension.isEmpty && extension.all Char.isAlphanum
  | _ => false

/-- `extname` of `path`: from the last dot of the last portion, unless it is the first character. -/
def extname (path : String) : String :=
  let portion := (path.toList.reverse.dropWhile (· = '/')).takeWhile (· ≠ '/')
  match portion.dropWhile (· ≠ '.') with
  | [] => ""
  | _ :: avant =>
    if avant = [] ∨ portion = ['.', '.'] then ""
    else String.ofList ('.' :: (portion.takeWhile (· ≠ '.')).reverse)

example : extname "a/b.tar.gz/" = ".gz" ∧ extname ".env" = "" ∧ extname "scan." = "." := by decide +kernel

/-! ## The service -/

structure StoredFile where
  buffer : List UInt8
  originalName : String

structure AccessUrl where
  url : String
  expiresAt : Time

structure SignedPayload where
  f : String
  e : Time

/-- The files that were written, in order. -/
abbrev Disque := List (String × List UInt8)

/-- `ACCESS_URL_TTL_MS`. -/
def accessUrlTtlMs : Int := 300000

/-- `String` of an integer. -/
def entier (x : ℚ) : String := toString x.num

/-- `l.replace(motif, '')`: the first occurrence is removed. -/
def retirer (motif : List Char) : List Char → List Char
  | [] => []
  | c :: l => if motif.isPrefixOf (c :: l) then (c :: l).drop motif.length else c :: retirer motif l

/-- `Buffer.from(token, 'base64url').toString('utf8')`. -/
def decoder (token : String) : String := String.ofList (Utf8.decode (Base64.decode token.toList))

/-- `Buffer.from(texte).toString('base64url')`. -/
def encoder (texte : String) : String := String.ofList (Base64.encode (octets texte))

namespace LocalDiskStorageProvider

def store (ownerId : Uuid) (type : String) (file : StoredFile) (randomUUID : Uuid) (disque : Disque) :
    String × Disque :=
  let fileName := ownerId.texte ++ "-" ++ type ++ "-" ++ randomUUID.texte ++ extname file.originalName
  ("local://documents/" ++ fileName, disque ++ [(fileName, file.buffer)])

variable (N : Node) (signingSecret : String)

def computeHmac : Option Value → Except String String
  | some (.str payload) => .ok (N.hmacHex signingSecret payload)
  | _ => .error "ERR_INVALID_ARG_TYPE"

def sign (payload : SignedPayload) : String :=
  let serialized := Audit.stringify entier [("f", .str payload.f), ("e", .num payload.e)]
  let hmac := N.hmacHex signingSecret serialized
  encoder (Audit.stringify entier [("p", .str serialized), ("h", .str hmac)])

def getAccessUrl (storageRef : String) (maintenant : Time) : AccessUrl :=
  let fileName := String.ofList (retirer "local://documents/".toList storageRef.toList)
  let expiresAt := maintenant + accessUrlTtlMs
  let token := sign N signingSecret ⟨fileName, expiresAt⟩
  { url := "/api/v1/documents/files/" ++ token, expiresAt }

/-- `FILE_NAME_PATTERN.test(f)`, and `f` if it passes; the text of `undefined` does not. -/
def fileNameOf : Option Value → Except String (Option Value)
  | none => .ok none
  | some f =>
    match texteDe N f with
    | none => .error "TypeError"
    | some texte => .ok (if fileNamePattern texte then some f else none)

/-- What is answered for the payload that is signed. -/
def resolvePayload (parsed : Value) (maintenant : Time) : Except String (Option Value) :=
  match parsed with
  | .null => .error "TypeError"
  | parsed =>
    match inferieur N (parsed.get "e") maintenant with
    | none => .error "TypeError"
    | some true => .ok none
    | some false => fileNameOf N (parsed.get "f")

/-- What is answered for the object in the token. -/
def resolveDecoded (decoded : Value) (maintenant : Time) : Except String (Option Value) := do
  let expectedHmac ← computeHmac N signingSecret (decoded.get "p")
  let provided ← bufferFrom N (decoded.get "h")
  let expected := octets expectedHmac
  if provided.length ≠ expected.length then return none
  else if provided ≠ expected then return none
  else
    match decoded.get "p" with
    | some (.str payload) =>
      match Rfc8259.parse payload with
      | none => return none
      | some parsed => resolvePayload N parsed maintenant
    | _ => return none

def resolveSignedToken (token : String) (maintenant : Time) : Except String (Option Value) :=
  match Rfc8259.parse (decoder token) with
  | none => .ok none
  | some .null => .ok none
  | some decoded => resolveDecoded N signingSecret decoded maintenant

end LocalDiskStorageProvider

/-- `PilgrimDocumentType`, as text. -/
def documentTypeValue : PilgrimDocumentType → String
  | .passport => "passport"
  | .visa => "visa"
  | .flightTicket => "flight_ticket"
  | .vaccinationCertificate => "vaccination_certificate"

/-- What is stored: a document of a pilgrim, or a legal document of an agency. -/
inductive DocumentKind where
  | pilgrim (type : PilgrimDocumentType)
  | agencyLegal

/-- The type that the caller passes; that of an agency is `LEGAL_DOCUMENT_TYPE`. -/
def DocumentKind.type : DocumentKind → String
  | .pilgrim type => documentTypeValue type
  | .agencyLegal => "agency_legal_document"

end OumraHajj.Storage
