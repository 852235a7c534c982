import OumraHajj.Exports.Formula

/-!
# What is read back from an export

A table of texts, a separator and a line break make a file of `celluleCsv` cells. The format of RFC 4180
reads the same rows and cells in it, each text as it was or, where it starts like a formula, after an
apostrophe (`csv_round_trip`). The rooming list, the accounting journal and the audit trail are such files
(`ecrit_tableau`).
-/

namespace OumraHajj.Exports

open Async Rfc4180

/-- A table: a row has a cell, and so has the header. -/
structure Tableau where
  entete : List String
  lignes : List (List String)
  entete_ne : entete ≠ []
  lignes_ne : ∀ ligne ∈ lignes, ligne ≠ []

/-- The header and the rows. -/
def Tableau.rangs (t : Tableau) : List (List String) := t.entete :: t.lignes

/-- The separators of the exports. -/
inductive Separateur where
  | pointVirgule
  | virgule

def Separateur.char : Separateur → Char
  | .pointVirgule => ';'
  | .virgule => ','

/-- The line breaks of the exports. -/
inductive FinDeLigne where
  | crlf
  | lf

def FinDeLigne.texte : FinDeLigne → String
  | .crlf => "\r\n"
  | .lf => "\n"

/-- The file of a table. -/
def Tableau.csv (t : Tableau) (sep : Separateur) (eol : FinDeLigne) : String :=
  Csv.fichier eol.texte (Csv.ligne sep.char.toString t.entete)
    (t.lignes.map fun ligne => Csv.ligne sep.char.toString ligne)

/-- What is read of a text: itself, after an apostrophe if it starts like a formula. -/
def Lu (texte lu : String) : Prop :=
  Csv.debutDeFormule texte = false ∧ lu = texte ∨ Csv.debutDeFormule texte = true ∧ lu = "'" ++ texte

theorem lu_neutralise (texte : String) : Lu texte (neutralise texte) := by
  unfold Lu neutralise
  cases hdebut : Csv.debutDeFormule texte with
  | false => exact .inl ⟨rfl, rfl⟩
  | true => exact .inr ⟨rfl, rfl⟩

/-- What is read in the file of a table. -/
theorem decode_csv (t : Tableau) (sep : Separateur) (eol : FinDeLigne) :
    decode sep.char (t.csv sep eol) = some (t.rangs.map fun rang => rang.map neutralise) := by
  have hquote : sep.char ≠ '"' := by cases sep <;> decide
  have hbreak : sep.char ≠ '\n' ∧ sep.char ≠ '\r' := by cases sep <;> decide
  have hsep : sep.char.toString.toList = [sep.char] := by cases sep <;> rfl
  have heol : LineBreak eol.texte.toList := by
    cases eol with
    | crlf => exact .inr rfl
    | lf => exact .inl rfl
  refine decode_lignes hbreak heol ?_ (.cons (row_ligne hquote hsep t.entete_ne)
    (rows_lignes hquote hsep t.lignes_ne)) (List.cons_ne_nil _ _)
  rw [Tableau.csv, Csv.fichier, String.toList_append]
  rfl

/-- **A file decodes to what was written**: as many rows, as many cells in each row, and each text, whatever
is in it. -/
theorem csv_round_trip (t : Tableau) (sep : Separateur) (eol : FinDeLigne) :
    ∃ rangs, decode sep.char (t.csv sep eol) = some rangs ∧
      List.Forall₂ (List.Forall₂ Lu) t.rangs rangs := by
  refine ⟨_, decode_csv t sep eol, ?_⟩
  rw [List.forall₂_map_right_iff, List.forall₂_same]
  intro rang _
  rw [List.forall₂_map_right_iff, List.forall₂_same]
  exact fun texte _ => lu_neutralise texte

/-! ## The exports -/

section Exports

variable {localeCompare : String → String → Bool} {nombre : ℚ → String} {s : Store} {texte : String}

/-- The table of a header and of the cells of what is listed. -/
def tableau {β : Type} (titres : List String) (l : List β) (cellules : β → List String)
    (htitres : titres ≠ []) (hcellules : ∀ x, cellules x ≠ []) : Tableau where
  entete := titres
  lignes := l.map cellules
  entete_ne := htitres
  lignes_ne := List.forall_mem_map.mpr fun x _ => hcellules x

theorem csv_tableau {β : Type} {titres : List String} {l : List β} {cellules : β → List String}
    {htitres : titres ≠ []} {hcellules : ∀ x, cellules x ≠ []} :
    (tableau titres l cellules htitres hcellules).csv .pointVirgule .crlf =
      Csv.fichier "\r\n" (Csv.ligne ";" titres) (l.map fun x => Csv.ligne ";" (cellules x)) := by
  unfold Tableau.csv tableau
  rw [List.map_map]
  rfl

/-- **An export with semicolons is the file of a table.** -/
theorem ecrit_tableau {x : Export} (hx : x.separateur = ';') (h : Ecrit localeCompare nombre s x texte) :
    ∃ t : Tableau, texte = t.csv .pointVirgule .crlf := by
  cases x with
  | roomingList ownerId blockId =>
    obtain ⟨s', hrun⟩ := h
    obtain ⟨bloc, rfl⟩ := texte_of_runs hrun
    refine ⟨tableau ["Hôtel", "Ville", "Type", "Chambre", "Pèlerin"]
      (bloc.rooms.flatMap fun chambre => chambre.occupants.map fun o => (chambre, o))
      (fun x => [bloc.hotelName, bloc.city, Rooms.libelleType bloc.roomType, toString x.1.number,
        x.2.pilgrimName]) (List.cons_ne_nil _ _) fun x => List.cons_ne_nil _ _, ?_⟩
    rw [csv_tableau, lignesOccupants_eq]
    rfl
  | roster requesterId requesterRole groupId => cases hx
  | journal ownerId query =>
    obtain ⟨s', hrun⟩ := h
    obtain ⟨journal, rfl⟩ := texte_of_runs hrun
    exact ⟨tableau AccountingExportService.titres journal.entries AccountingExportService.cellules
      (by decide) fun e => List.cons_ne_nil _ _, csv_tableau.symm⟩
  | auditTrail query =>
    obtain ⟨s', hrun⟩ := h
    obtain ⟨lignes, rfl⟩ := texte_of_runs hrun
    exact ⟨tableau Audit.AuditService.titres lignes
      (fun l => (Audit.AuditService.cellules nombre l).map (·.getD "")) (by decide)
      fun l => List.cons_ne_nil _ _, csv_tableau.symm⟩
  | satisfactionReport ownerId => cases hx

end Exports

end OumraHajj.Exports
