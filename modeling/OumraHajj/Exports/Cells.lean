import OumraHajj.Common.Csv
import OumraHajj.Common.Rfc4180

/-!
# Formulas in cells

A spreadsheet computes a cell that starts with `=`, `@`, a tab, a carriage return, or a sign that more
than digits and spaces follow. `Sain` is a cell that it does not compute, `Sur sep texte` a file whose
data have such cells only. `celluleCsv` writes such a cell for any text (`sain_neutralise`), so a file of
its lines is `Sur` (`sur_fichier`).
-/

namespace OumraHajj.Exports

open Rfc4180

/-- No formula is in the cell (module doc). -/
def Sain (cellule : String) : Prop :=
  ∀ c ∈ cellule.toList.head?, c ∉ ['=', '@', '\t', '\r'] ∧
    (c ∈ ['+', '-'] → ∀ d ∈ cellule.toList.tail, d.isDigit = true ∨ Csv.estEspace d = true)

theorem sain_iff {cellule : String} :
    (cellule.toList.head?.all fun c => decide (c ∉ ['=', '@', '\t', '\r'] ∧
      (c ∈ ['+', '-'] → (cellule.toList.tail.all fun d => d.isDigit || Csv.estEspace d) = true))) = true ↔
      Sain cellule := by
  unfold Sain
  cases cellule.toList.head? with
  | none => simp
  | some c =>
    simp only [Option.all_some, decide_eq_true_eq, List.all_eq_true, Bool.or_eq_true,
      Option.mem_some_iff, forall_eq']

instance (cellule : String) : Decidable (Sain cellule) := decidable_of_iff _ sain_iff

/-- The file is well formed, and no formula is in the cells under its header. -/
def Sur (sep : Char) (texte : String) : Prop :=
  ∃ lignes, decode sep texte = some lignes ∧ ∀ ligne ∈ lignes.tail, ∀ cellule ∈ ligne, Sain cellule

/-- The text that `celluleCsv` puts between quotes. -/
def neutralise (valeur : String) : String :=
  if Csv.debutDeFormule valeur then "'" ++ valeur else valeur

theorem sain_cons {c : Char} {cellule : String} {reste : List Char} (h : cellule.toList = c :: reste) :
    Sain cellule ↔ c ∉ ['=', '@', '\t', '\r'] ∧
      (c ∈ ['+', '-'] → ∀ d ∈ reste, d.isDigit = true ∨ Csv.estEspace d = true) := by
  unfold Sain
  rw [h]
  simp only [List.head?_cons, Option.mem_def, Option.some.injEq, forall_eq', List.tail_cons]

theorem sain_empty {cellule : String} (h : cellule.toList = []) : Sain cellule := by
  intro c hc
  rw [h] at hc
  cases hc

/-- A cell that starts with a digit is not computed. -/
theorem sain_of_isDigit {c : Char} {cellule : String} {reste : List Char}
    (h : cellule.toList = c :: reste) (hc : c.isDigit = true) : Sain cellule := by
  have hne : ∀ d : Char, d.isDigit = false → c ≠ d := by
    rintro d hd rfl
    rw [hc] at hd
    cases hd
  refine (sain_cons h).mpr ⟨fun hmem => ?_, fun hmem => ?_⟩
  · simp only [List.mem_cons, List.not_mem_nil, or_false] at hmem
    rcases hmem with h | h | h | h <;> exact absurd h (hne _ (by decide))
  · simp only [List.mem_cons, List.not_mem_nil, or_false] at hmem
    rcases hmem with h | h <;> exact absurd h (hne _ (by decide))

/-- **What `celluleCsv` puts between quotes is not computed**, for any text. -/
theorem sain_neutralise (valeur : String) : Sain (neutralise valeur) := by
  unfold neutralise
  split
  · have h : ("'" ++ valeur).toList = '\'' :: valeur.toList := by rw [String.toList_append]; rfl
    exact (sain_cons h).mpr ⟨by decide, fun hmem => absurd hmem (by decide)⟩
  · next hdebut =>
    rcases hv : valeur.toList with _ | ⟨c, reste⟩
    · exact sain_empty hv
    · unfold Csv.debutDeFormule at hdebut
      rw [hv] at hdebut
      simp only [Bool.or_eq_true, Bool.and_eq_true, not_or, not_and, Bool.not_eq_true,
        Bool.not_eq_false', List.contains_eq_mem, decide_eq_true_eq] at hdebut
      refine (sain_cons hv).mpr ⟨hdebut.1, fun hmem d hd => ?_⟩
      have := List.all_eq_true.mp (hdebut.2 hmem).2 d hd
      simpa using this

/-! ## Files -/

theorem celluleCsv_toList (valeur : String) :
    (Csv.celluleCsv valeur).toList = escape (neutralise valeur).toList := by
  have hquote : "\"".toList = ['"'] := rfl
  unfold Csv.celluleCsv escape doubled
  simp only [String.toList_append, String.toList_ofList, hquote, neutralise, List.cons_append,
    List.nil_append]

variable {sep : Char} {separateur : String}

/-- The cells of a line are read back, the formulas in them neutralised. -/
theorem row_ligne (hquote : sep ≠ '"') (hsep : separateur.toList = [sep]) {cellules : List String}
    (hne : cellules ≠ []) :
    Row sep (Csv.ligne separateur cellules).toList (cellules.map neutralise) := by
  have hcellules : (cellules.map Csv.celluleCsv).map String.toList =
      (cellules.map neutralise).map fun v => escape v.toList := by
    rw [List.map_map, List.map_map]
    exact List.map_congr_left fun valeur _ => celluleCsv_toList valeur
  unfold Csv.ligne
  rw [String.toList_intercalate, hsep, hcellules]
  exact row_escape hquote (by simpa using hne)

theorem record_ligne (hquote : sep ≠ '"') (hsep : separateur.toList = [sep]) {cellules : List String}
    (hne : cellules ≠ []) :
    Record sep (Csv.ligne separateur cellules).toList (cellules.map neutralise) :=
  (row_ligne hquote hsep hne).record

/-- What a file with a header and lines is read as. -/
theorem decode_lignes (hsep : sep ≠ '\n' ∧ sep ≠ '\r') {eol texte : String} (heol : LineBreak eol.toList)
    {lignes : List String} {vss : List (List String)}
    (htexte : dropBom texte.toList = (eol.intercalate lignes).toList)
    (h : List.Forall₂ (fun ligne vs => Row sep ligne.toList vs) lignes vss) (hne : lignes ≠ []) :
    decode sep texte = some vss := by
  refine decode_intercalate hsep heol (htexte.trans String.toList_intercalate) ?_ (by simpa using hne)
  rwa [List.forall₂_map_left_iff]

/-- The lines of cells after the line of the header. -/
theorem rows_lignes {β : Type} (hquote : sep ≠ '"') (hsep : separateur.toList = [sep]) {l : List β}
    {cellules : β → List String} (hcellules : ∀ x ∈ l, cellules x ≠ []) :
    List.Forall₂ (fun ligne vs => Row sep ligne.toList vs) (l.map fun x => Csv.ligne separateur (cellules x))
      (l.map fun x => (cellules x).map neutralise) := by
  rw [List.forall₂_map_left_iff, List.forall₂_map_right_iff, List.forall₂_same]
  exact fun x hx => row_ligne hquote hsep (hcellules x hx)

theorem ne_singleton {l : List String} (h : 2 ≤ l.length) : l ≠ [""] := by
  rintro rfl
  simp at h

/-- **A file of lines of `celluleCsv` has no formula**, whatever the texts in it. -/
theorem sur_fichier {β : Type} (hquote : sep ≠ '"') (hbreak : sep ≠ '\n' ∧ sep ≠ '\r')
    (hsep : separateur.toList = [sep]) {eol : String} (heol : LineBreak eol.toList) {entete : String}
    {titres : List String} (hentete : Record sep entete.toList titres) (htitres : 2 ≤ titres.length)
    {l : List β} {cellules : β → List String} (hcellules : ∀ x ∈ l, 2 ≤ (cellules x).length) :
    Sur sep (Csv.fichier eol entete (l.map fun x => Csv.ligne separateur (cellules x))) := by
  refine ⟨titres :: l.map fun x => (cellules x).map neutralise, ?_, ?_⟩
  · have hcorps := rows_lignes hquote hsep fun x hx =>
      List.ne_nil_of_length_pos (Nat.zero_lt_of_lt (hcellules x hx))
    refine decode_lignes hbreak heol ?_ (.cons (hentete.row (ne_singleton htitres)) hcorps)
      (List.cons_ne_nil _ _)
    rw [Csv.fichier, String.toList_append]
    rfl
  · intro ligne hligne cellule hcellule
    obtain ⟨x, -, rfl⟩ := List.mem_map.mp hligne
    obtain ⟨valeur, -, rfl⟩ := List.mem_map.mp hcellule
    exact sain_neutralise valeur

end OumraHajj.Exports
