import OumraHajj.Common.Base64

/-!
# UTF-8

`decode` reads octets as `Buffer.toString('utf8')` does: octets that are no character make a `U+FFFD`, one for
each longest start of a character. The octets of a text are read as the text (`decode_octets`).
-/

namespace OumraHajj.Utf8

/-- The octet is between the bounds. -/
def entre (lo hi a : UInt8) : Bool := lo ≤ a && a ≤ hi

/-- The second octet of a character of three or four octets. -/
def second (a b : UInt8) : Bool :=
  if a = 0xE0 then entre 0xA0 0xBF b
  else if a = 0xED then entre 0x80 0x9F b
  else if a = 0xF0 then entre 0x90 0xBF b
  else if a = 0xF4 then entre 0x80 0x8F b
  else entre 0xE1 0xF3 a && entre 0x80 0xBF b

/-- How many octets are replaced, where no character starts. -/
def replaced : List UInt8 → Nat
  | a :: b :: l =>
    if second a b then
      match l with
      | c :: _ => if entre 0xF0 0xF4 a && entre 0x80 0xBF c then 3 else 2
      | [] => 2
    else 1
  | _ => 1

/-- The characters of the octets after the next `skip` ones. -/
def decodeAfter : Nat → List UInt8 → List Char
  | _, [] => []
  | skip + 1, _ :: l => decodeAfter skip l
  | 0, a :: l =>
    match (a :: l).toByteArray.utf8DecodeChar? 0 with
    | some c => c :: decodeAfter (c.utf8Size - 1) l
    | none => '\uFFFD' :: decodeAfter (replaced (a :: l) - 1) l

/-- The characters of the octets. -/
def decode (l : List UInt8) : List Char := decodeAfter 0 l

example : decode [0x61, 0xF0, 0x90, 0x80, 0xC3, 0xA9, 0xE0, 0x80] = ['a', '\uFFFD', 'é', '\uFFFD', '\uFFFD'] := by
  decide +kernel

theorem decodeAfter_append (l l' : List UInt8) : decodeAfter l.length (l ++ l') = decode l' := by
  induction l with
  | nil => rfl
  | cons a l ih => exact ih

theorem decode_char (c : Char) (l : List UInt8) : decode (String.utf8EncodeChar c ++ l) = c :: decode l := by
  obtain ⟨a, reste, hc⟩ := List.exists_cons_of_length_pos
    (String.length_utf8EncodeChar c ▸ c.utf8Size_pos : 0 < (String.utf8EncodeChar c).length)
  have hlen : reste.length = c.utf8Size - 1 := by
    have h := String.length_utf8EncodeChar c
    rw [hc, List.length_cons] at h
    omega
  have hchar : (a :: (reste ++ l)).toByteArray.utf8DecodeChar? 0 = some c := by
    rw [← List.cons_append, ← hc, List.toByteArray_append]
    exact ByteArray.utf8DecodeChar?_utf8EncodeChar_append
  rw [hc, List.cons_append, decode, decodeAfter, hchar]
  exact congrArg (c :: ·) (hlen ▸ decodeAfter_append reste l)

/-- **The octets of a text are read as the text.** -/
theorem decode_octets (s : String) : decode (octets s) = s.toList := by
  unfold octets
  induction s.toList with
  | nil => rfl
  | cons c l ih => rw [List.flatMap_cons, decode_char, ih]

end OumraHajj.Utf8
