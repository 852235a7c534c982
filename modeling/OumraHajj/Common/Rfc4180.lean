import Mathlib.Data.List.Basic
import Mathlib.Data.List.Forall2

/-!
# RFC 4180

A reader of files in the format of RFC 4180 with any separator, and what it reads in the files of a
writer. A field is plain or between quotes, in which a quote is doubled; records end with `LF` or `CRLF`,
and the last one need not.

* `decode sep text`: the records of a file, without its byte order mark; `none` if it is malformed.
* `Field sep w v`, `Record sep w vs`: the characters `w` are read as the field `v`, as the record `vs`.
* `field_escape`, `field_plain`, `record_intercalate`, `decode_intercalate`: what a writer writes is read
  back.
-/

namespace Rfc4180

/-- Where the reader is: before a field, in a plain one, between quotes, after the closing quote or after
a carriage return. -/
inductive Mode where
  | start
  | plain
  | quoted
  | closed
  | ret
  deriving DecidableEq

structure Reader where
  mode : Mode := .start
  field : List Char := []
  record : List String := []
  records : List (List String) := []

namespace Reader

/-- The field ends, and another one starts. -/
def endField (r : Reader) : Reader :=
  { r with mode := .start, field := [], record := r.record ++ [String.ofList r.field] }

/-- The record with the field that ends it. -/
def ended (r : Reader) : List String := r.record ++ [String.ofList r.field]

/-- The record ends, and another one starts. -/
def endRecord (r : Reader) : Reader := { records := r.records ++ [r.ended] }

/-- The character after a field, if it is one that ends it. -/
def delimiter (sep : Char) (r : Reader) (c : Char) : Option Reader :=
  if c = sep then some r.endField
  else if c = '\n' then some r.endRecord
  else if c = '\r' then some { r with mode := .ret }
  else none

/-- One character is read. -/
def read (sep : Char) (r : Reader) (c : Char) : Option Reader :=
  match r.mode with
  | .quoted =>
    if c = '"' then some { r with mode := .closed } else some { r with field := r.field ++ [c] }
  | .closed =>
    if c = '"' then some { r with mode := .quoted, field := r.field ++ [c] } else r.delimiter sep c
  | .start =>
    if c = '"' then some { r with mode := .quoted }
    else (r.delimiter sep c).or (some { r with mode := .plain, field := [c] })
  | .plain =>
    if c = '"' then none
    else (r.delimiter sep c).or (some { r with field := r.field ++ [c] })
  | .ret => if c = '\n' then some r.endRecord else none

def readAll (sep : Char) (r : Reader) (l : List Char) : Option Reader := l.foldlM (read sep) r

/-- The records at the end of the file; a line break at the end starts no record. -/
def finish (r : Reader) : Option (List (List String)) :=
  match r.mode with
  | .quoted | .ret => none
  | _ =>
    if r.record = [] ∧ r.field = [] ∧ r.mode = .start ∧ r.records ≠ [] then some r.records
    else some r.endRecord.records

end Reader

/-- The characters of a file after its byte order mark. -/
def dropBom : List Char → List Char
  | [] => []
  | c :: l => if c = '\uFEFF' then l else c :: l

/-- The records of a file. -/
def decode (sep : Char) (text : String) : Option (List (List String)) :=
  (Reader.readAll sep {} (dropBom text.toList)).bind Reader.finish

/-- A quote is doubled. -/
def doubled (l : List Char) : List Char := l.flatMap fun c => if c = '"' then ['"', '"'] else [c]

/-- The field between quotes. -/
def escape (l : List Char) : List Char := '"' :: (doubled l ++ ['"'])

/-- The character is neither a quote nor one that ends a field. -/
def Plain (sep c : Char) : Prop := c ≠ '"' ∧ c ≠ sep ∧ c ≠ '\n' ∧ c ≠ '\r'

/-- A field is over at its end, or with the character after it. -/
def Mode.Done (m : Mode) : Prop := m = .start ∨ m = .plain ∨ m = .closed

/-- The characters `w` are read as the field `v`. -/
def Field (sep : Char) (w : List Char) (v : String) : Prop :=
  ∀ record records, ∃ m : Mode, m.Done ∧
    Reader.readAll sep ⟨.start, [], record, records⟩ w = some ⟨m, v.toList, record, records⟩

/-- The characters `w` are read as the record `vs`. -/
def Record (sep : Char) (w : List Char) (vs : List String) : Prop :=
  ∀ records, ∃ r : Reader, r.mode.Done ∧ r.ended = vs ∧ r.records = records ∧
    Reader.readAll sep { records := records } w = some r

/-- The characters `w` are a line that is read as the record `vs`: one empty field is between quotes, not a
blank line. -/
def Row (sep : Char) (w : List Char) (vs : List String) : Prop :=
  ∀ records, ∃ r : Reader, r.mode.Done ∧ r.ended = vs ∧ r.records = records ∧
    (r.mode = .start → vs ≠ [""]) ∧ Reader.readAll sep { records := records } w = some r

example : decode ',' "a,\"b\"\"\n\"\r\n,c" = some [["a", "b\"\n"], ["", "c"]] := by decide +kernel

namespace Reader

variable {sep : Char}

theorem readAll_append (r : Reader) (l l' : List Char) :
    r.readAll sep (l ++ l') = (r.readAll sep l).bind fun r' => r'.readAll sep l' :=
  List.foldlM_append ..

theorem readAll_cons (r : Reader) (c : Char) (l : List Char) :
    r.readAll sep (c :: l) = (r.read sep c).bind fun r' => r'.readAll sep l := List.foldlM_cons ..

/-- After a field, a character that ends it is read as such. -/
theorem read_delimiter {r r' : Reader} {c : Char} (hd : r.mode.Done) (hc : c ≠ '"')
    (h : r.delimiter sep c = some r') : r.read sep c = some r' := by
  unfold read
  rcases hd with hm | hm | hm <;> rw [hm]
  · simp only [hc, if_false, h, Option.some_or]
  · simp only [hc, if_false, h, Option.some_or]
  · simp only [hc, if_false, h]

end Reader

variable {sep : Char}

/-! ## Fields -/

/-- Between quotes, the field is read with its quotes once. -/
theorem readAll_doubled (l field : List Char) (record : List String) (records : List (List String)) :
    Reader.readAll sep ⟨.quoted, field, record, records⟩ (doubled l) =
      some ⟨.quoted, field ++ l, record, records⟩ := by
  induction l generalizing field with
  | nil => simp [doubled, Reader.readAll]
  | cons c l ih =>
    have hcons : doubled (c :: l) = (if c = '"' then ['"', '"'] else [c]) ++ doubled l :=
      List.flatMap_cons
    rw [hcons, Reader.readAll_append]
    by_cases hc : c = '"'
    · subst hc
      simpa [Reader.readAll, Reader.read] using ih (field ++ ['"'])
    · simpa [Reader.readAll, Reader.read, hc] using ih (field ++ [c])

/-- **A field between quotes is read back.** -/
theorem field_escape (v : String) : Field sep (escape v.toList) v := by
  intro record records
  refine ⟨.closed, .inr (.inr rfl), ?_⟩
  unfold escape
  rw [Reader.readAll_cons]
  have hopen : Reader.read sep ⟨.start, [], record, records⟩ '"' =
      some ⟨.quoted, [], record, records⟩ := rfl
  rw [hopen, Option.bind_some, Reader.readAll_append, readAll_doubled]
  rfl

theorem read_plain {m : Mode} {c : Char} {field : List Char} {record : List String}
    {records : List (List String)} (hc : Plain sep c) (hm : m = .start ∧ field = [] ∨ m = .plain) :
    Reader.read sep ⟨m, field, record, records⟩ c = some ⟨.plain, field ++ [c], record, records⟩ := by
  obtain ⟨hquote, hsep, hlf, hcr⟩ := hc
  rcases hm with ⟨rfl, rfl⟩ | rfl
  · simp [Reader.read, Reader.delimiter, hquote, hsep, hlf, hcr]
  · simp [Reader.read, Reader.delimiter, hquote, hsep, hlf, hcr]

theorem readAll_plain {l : List Char} (hl : ∀ c ∈ l, Plain sep c) (field : List Char)
    (record : List String) (records : List (List String)) :
    Reader.readAll sep ⟨.plain, field, record, records⟩ l =
      some ⟨.plain, field ++ l, record, records⟩ := by
  induction l generalizing field with
  | nil => simp [Reader.readAll]
  | cons c l ih =>
    rw [Reader.readAll_cons, read_plain (hl c List.mem_cons_self) (.inr rfl), Option.bind_some,
      ih fun d hd => hl d (List.mem_cons_of_mem _ hd)]
    simp

/-- **A field of other characters is read back.** -/
theorem field_plain {v : String} (h : ∀ c ∈ v.toList, Plain sep c) : Field sep v.toList v := by
  intro record records
  rcases hv : v.toList with _ | ⟨c, l⟩
  · exact ⟨.start, .inl rfl, rfl⟩
  · rw [hv] at h
    refine ⟨.plain, .inr (.inl rfl), ?_⟩
    rw [Reader.readAll_cons, read_plain (h c List.mem_cons_self) (.inl ⟨rfl, rfl⟩), Option.bind_some,
      readAll_plain fun d hd => h d (List.mem_cons_of_mem _ hd)]
    rfl

/-! ## Records -/

theorem readAll_record (hsep : sep ≠ '"') {ws : List (List Char)} {vs : List String}
    (h : List.Forall₂ (Field sep) ws vs) (hne : ws ≠ []) (record : List String)
    (records : List (List String)) : ∃ r : Reader, r.mode.Done ∧ r.ended = record ++ vs ∧
      r.records = records ∧
      Reader.readAll sep ⟨.start, [], record, records⟩ ([sep].intercalate ws) = some r := by
  induction h generalizing record with
  | nil => exact absurd rfl hne
  | @cons w v ws vs hw hws ih =>
    obtain ⟨m, hm, hread⟩ := hw record records
    cases hws with
    | nil =>
      rw [List.intercalate_singleton]
      exact ⟨_, hm, by simp [Reader.ended], rfl, hread⟩
    | @cons w' v' ws' vs' hw' hws' =>
      rw [List.intercalate_cons_cons, List.append_assoc, Reader.readAll_append, hread,
        Option.bind_some, List.cons_append, List.nil_append, Reader.readAll_cons,
        Reader.read_delimiter hm hsep (if_pos rfl), Option.bind_some]
      obtain ⟨r, hdone, hended, hrecords, hr⟩ := ih (by simp) (record ++ [v])
      refine ⟨r, hdone, by simpa using hended, hrecords, ?_⟩
      simpa [Reader.endField] using hr

/-- **The fields of a line, between separators, are read back.** -/
theorem record_intercalate (hsep : sep ≠ '"') {ws : List (List Char)} {vs : List String}
    (h : List.Forall₂ (Field sep) ws vs) (hne : ws ≠ []) :
    Record sep ([sep].intercalate ws) vs := fun records => by
  simpa using readAll_record hsep h hne [] records

theorem Record.row {w : List Char} {vs : List String} (h : Record sep w vs) (hne : vs ≠ [""]) :
    Row sep w vs := by
  intro records
  obtain ⟨r, hdone, hended, hrecords, hread⟩ := h records
  exact ⟨r, hdone, hended, hrecords, fun _ => hne, hread⟩

theorem Row.record {w : List Char} {vs : List String} (h : Row sep w vs) : Record sep w vs := by
  intro records
  obtain ⟨r, hdone, hended, hrecords, -, hread⟩ := h records
  exact ⟨r, hdone, hended, hrecords, hread⟩

/-- **Fields between quotes are a line**, one empty field too. -/
theorem row_escape (hsep : sep ≠ '"') {vs : List String} (hne : vs ≠ []) :
    Row sep ([sep].intercalate (vs.map fun v => escape v.toList)) vs := by
  by_cases hblank : vs = [""]
  · subst hblank
    exact fun records => ⟨⟨.closed, [], [], records⟩, .inr (.inr rfl), rfl, rfl, nofun, rfl⟩
  · refine (record_intercalate hsep ?_ (by simpa using hne)).row hblank
    rw [List.forall₂_map_left_iff, List.forall₂_same]
    exact fun v _ => field_escape v

/-! ## Files -/

/-- A line break. -/
def LineBreak (eol : List Char) : Prop := eol = ['\n'] ∨ eol = ['\r', '\n']

theorem readAll_lineBreak {eol : List Char} (heol : LineBreak eol) (hlf : sep ≠ '\n')
    (hcr : sep ≠ '\r') {r : Reader} (hr : r.mode.Done) :
    r.readAll sep eol = some r.endRecord := by
  have hbreak : r.read sep '\n' = some r.endRecord :=
    Reader.read_delimiter hr (by decide) (by simp [Reader.delimiter, Ne.symm hlf])
  rcases heol with rfl | rfl
  · rw [Reader.readAll_cons, hbreak]
    rfl
  · have hret : r.read sep '\r' = some { r with mode := .ret } :=
      Reader.read_delimiter hr (by decide) (by simp [Reader.delimiter, Ne.symm hcr])
    rw [Reader.readAll_cons, hret]
    rfl

/-- At the end of the file, the last record ends. -/
theorem finish_eq {r : Reader} (hr : r.mode.Done) (hne : r.mode = .start → r.ended ≠ [""]) :
    r.finish = some (r.records ++ [r.ended]) := by
  have hnot : ¬ (r.record = [] ∧ r.field = [] ∧ r.mode = .start ∧ r.records ≠ []) := by
    rintro ⟨hrecord, hfield, hmode, -⟩
    refine hne hmode ?_
    unfold Reader.ended
    rw [hrecord, hfield]
    rfl
  unfold Reader.finish
  rcases hr with hm | hm | hm
  · rw [if_neg hnot, hm]
    rfl
  · rw [if_neg hnot, hm]
    rfl
  · rw [if_neg hnot, hm]
    rfl

theorem readAll_file (hsep : sep ≠ '\n' ∧ sep ≠ '\r') {eol : List Char} (heol : LineBreak eol)
    {ws : List (List Char)} {vss : List (List String)} (h : List.Forall₂ (Row sep) ws vss)
    (hne : ws ≠ []) (records : List (List String)) :
    (Reader.readAll sep { records := records } (eol.intercalate ws)).bind Reader.finish =
      some (records ++ vss) := by
  induction h generalizing records with
  | nil => exact absurd rfl hne
  | @cons w vs ws vss hw hws ih =>
    obtain ⟨r, hdone, hended, hrecords, hblank, hread⟩ := hw records
    cases hws with
    | nil =>
      rw [List.intercalate_singleton, hread, Option.bind_some,
        finish_eq hdone fun hmode => hended ▸ hblank hmode, hended, hrecords]
    | @cons w' vs' ws' vss' hw' hws' =>
      rw [List.intercalate_cons_cons, List.append_assoc, Reader.readAll_append, hread,
        Option.bind_some, Reader.readAll_append, readAll_lineBreak heol hsep.1 hsep.2 hdone,
        Option.bind_some]
      have hrest := ih (by simp) (records ++ [vs])
      unfold Reader.endRecord
      rw [hended, hrecords]
      simpa using hrest

/-- **A file is read back**, with or without its byte order mark. -/
theorem decode_intercalate (hsep : sep ≠ '\n' ∧ sep ≠ '\r') {eol : List Char} (heol : LineBreak eol)
    {text : String} {ws : List (List Char)} {vss : List (List String)}
    (htext : dropBom text.toList = eol.intercalate ws) (h : List.Forall₂ (Row sep) ws vss)
    (hne : ws ≠ []) : decode sep text = some vss := by
  unfold decode
  rw [htext, readAll_file hsep heol h hne, List.nil_append]

end Rfc4180
