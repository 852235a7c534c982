import Mathlib.Data.List.Basic

/-!
# RFC 5545

The lines of an iCalendar stream, and the values of type TEXT in them.

* `lines text`: the stream, split at each `CRLF`.
* `unescape text`: the value that a TEXT stands for; `none` if it is malformed.
* `lines_intercalate`: lines without `LF`, with `CRLF` between them, are read back.
* `unescape_escape`: an escaped value is read back.
-/

namespace Rfc5545

/-- The characters between each `\r\n` and the next one, the first one from the left. -/
def splitLines : List Char → List (List Char)
  | [] => [[]]
  | '\r' :: '\n' :: l => [] :: splitLines l
  | c :: l => (splitLines l).modifyHead (c :: ·)

def lines (text : String) : List String := (splitLines text.toList).map String.ofList

/-- A backslash, a semicolon or a comma, which a TEXT only has after a backslash. -/
def special : List Char := ['\\', ';', ',']

/-- The characters that a TEXT stands for. -/
def unescapeChars : List Char → Option (List Char)
  | [] => some []
  | ['\\'] => none
  | '\\' :: c :: l =>
    if c = 'n' ∨ c = 'N' then (unescapeChars l).map ('\n' :: ·)
    else if c ∈ special then (unescapeChars l).map (c :: ·)
    else none
  | c :: l => if c ∈ special then none else (unescapeChars l).map (c :: ·)

def unescape (text : String) : Option String := (unescapeChars text.toList).map String.ofList

/-- A character of a value in a TEXT. -/
def escapeChar (c : Char) : List Char :=
  if c = '\n' then ['\\', 'n'] else if c ∈ special then ['\\', c] else [c]

/-- The characters of a value in a TEXT. -/
def escape (l : List Char) : List Char := l.flatMap escapeChar

example : lines "a\r\r\nb\n\r\n" = ["a\r", "b\n", ""] := by decide +kernel

example : unescape "\\\\n\\n\\;" = some "\\n\n;" := by decide +kernel

/-! ## Lines -/

theorem splitLines_cons {c : Char} {l : List Char} (h : c = '\r' → l.head? ≠ some '\n') :
    splitLines (c :: l) = (splitLines l).modifyHead (c :: ·) := by
  rw [splitLines]
  rintro l' rfl rfl
  exact h rfl rfl

/-- A line ends with the first `CRLF`. -/
theorem splitLines_append {l r : List Char} (hl : '\n' ∉ l) :
    splitLines (l ++ '\r' :: '\n' :: r) = l :: splitLines r := by
  induction l with
  | nil => rw [List.nil_append, splitLines]
  | cons c l ih =>
    have hnext : (l ++ '\r' :: '\n' :: r).head? ≠ some '\n' := by
      cases l with
      | nil => simp
      | cons d l =>
        rintro hd
        exact hl (by simpa using .inr (.inl (Option.some.inj hd).symm))
    rw [List.cons_append, splitLines_cons fun _ => hnext, ih fun h => hl (List.mem_cons_of_mem _ h),
      List.modifyHead_cons]

theorem splitLines_of_notMem {l : List Char} (hl : '\n' ∉ l) : splitLines l = [l] := by
  induction l with
  | nil => rfl
  | cons c l ih =>
    have hnext : l.head? ≠ some '\n' := fun h => hl (List.mem_cons_of_mem _ (List.mem_of_head? h))
    rw [splitLines_cons fun _ => hnext, ih fun h => hl (List.mem_cons_of_mem _ h),
      List.modifyHead_cons]

theorem splitLines_intercalate {ls : List (List Char)} (hls : ∀ l ∈ ls, '\n' ∉ l) (hne : ls ≠ []) :
    splitLines (['\r', '\n'].intercalate ls) = ls := by
  induction ls with
  | nil => exact absurd rfl hne
  | cons l ls ih =>
    have hl := hls l List.mem_cons_self
    cases ls with
    | nil => rw [List.intercalate_singleton, splitLines_of_notMem hl]
    | cons l' ls =>
      have hrest := ih (fun x hx => hls x (List.mem_cons_of_mem _ hx)) (List.cons_ne_nil _ _)
      rw [List.intercalate_cons_cons, List.append_assoc, List.cons_append, List.cons_append,
        List.nil_append, splitLines_append hl, hrest]

/-- **Lines are read back.** -/
theorem lines_intercalate {ls : List String} (hls : ∀ l ∈ ls, '\n' ∉ l.toList) (hne : ls ≠ []) :
    lines ("\r\n".intercalate ls) = ls := by
  have hcrlf : "\r\n".toList = ['\r', '\n'] := rfl
  rw [lines, String.toList_intercalate, hcrlf,
    splitLines_intercalate (List.forall_mem_map.mpr hls) (by simpa using hne), List.map_map]
  exact (List.map_congr_left fun l _ => String.ofList_toList).trans (List.map_id' ls)

/-- Blocks of lines, with the separator between the lines and between the blocks. -/
theorem intercalate_flatten {sep : String} {blocks : List (List String)} (h : ∀ b ∈ blocks, b ≠ []) :
    sep.intercalate (blocks.map sep.intercalate) = sep.intercalate blocks.flatten := by
  induction blocks with
  | nil => rfl
  | cons b blocks ih =>
    have hb : b ≠ [] := h b List.mem_cons_self
    have hrest := ih fun x hx => h x (List.mem_cons_of_mem _ hx)
    rw [List.map_cons, List.flatten_cons]
    by_cases hne : blocks = []
    · subst hne
      rw [List.map_nil, List.flatten_nil, List.append_nil, String.intercalate_singleton]
    · have hflatten : blocks.flatten ≠ [] := by
        obtain ⟨b', hb'⟩ := List.exists_mem_of_ne_nil _ hne
        exact List.flatten_ne_nil_iff.mpr ⟨b', hb', h b' (List.mem_cons_of_mem _ hb')⟩
      rw [String.intercalate_cons_of_ne_nil (by simpa using hne),
        String.intercalate_append_of_ne_nil hb hflatten, hrest]

/-! ## Texts -/

theorem unescapeChars_escapeChar (c : Char) (l : List Char) :
    unescapeChars (escapeChar c ++ l) = (unescapeChars l).map (c :: ·) := by
  unfold escapeChar
  by_cases hlf : c = '\n'
  · subst hlf
    rfl
  by_cases hc : c ∈ special
  · have hn : ¬ (c = 'n' ∨ c = 'N') := by
      rintro (rfl | rfl)
      · exact absurd hc (by decide)
      · exact absurd hc (by decide)
    rw [if_neg hlf, if_pos hc, List.cons_append, List.cons_append, List.nil_append, unescapeChars,
      if_neg hn, if_pos hc]
  · have hbackslash : c ≠ '\\' := by
      rintro rfl
      exact hc (by decide)
    rw [if_neg hlf, if_neg hc, List.cons_append, List.nil_append, unescapeChars, if_neg hc]
    · exact fun h _ => hbackslash h
    · exact fun _ _ h _ => hbackslash h

/-- **An escaped value is read back.** -/
theorem unescapeChars_escape (l : List Char) : unescapeChars (escape l) = some l := by
  induction l with
  | nil => rfl
  | cons c l ih =>
    have hcons : escape (c :: l) = escapeChar c ++ escape l := List.flatMap_cons
    rw [hcons, unescapeChars_escapeChar, ih, Option.map_some]

/-- There is no line break in an escaped value. -/
theorem notMem_escape (l : List Char) : '\n' ∉ escape l := by
  intro h
  obtain ⟨c, -, hc⟩ := List.mem_flatMap.mp h
  unfold escapeChar at hc
  split at hc
  · exact absurd hc (by decide)
  · next hlf =>
    split at hc
    · rcases List.mem_cons.mp hc with h | h
      · exact absurd h (by decide)
      · exact hlf (List.mem_singleton.mp h).symm
    · exact hlf (List.mem_singleton.mp hc).symm

end Rfc5545
