import Mathlib.Data.List.Basic

/-!
# CSV files

The cells, the lines and the files that the exports write (`src/common/utils/csv.ts`).
-/

namespace OumraHajj

namespace Csv

/-- `\s`. -/
def estEspace (c : Char) : Bool :=
  let n := c.toNat
  (9 ≤ n && n ≤ 13) || (8192 ≤ n && n ≤ 8202) ||
    [32, 160, 5760, 8232, 8233, 8239, 8287, 12288, 65279].contains n

/-- `DEBUT_DE_FORMULE`. -/
def debutDeFormule (texte : String) : Bool :=
  match texte.toList with
  | [] => false
  | c :: reste =>
    ['=', '@', '\t', '\r'].contains c ||
      (['+', '-'].contains c &&
        !(!reste.isEmpty && reste.all fun d => d.isDigit || estEspace d))

def celluleCsv (valeur : String) : String :=
  let neutralise := if debutDeFormule valeur then "'" ++ valeur else valeur
  "\"" ++ String.ofList (neutralise.toList.flatMap fun c =>
    if c = '"' then ['"', '"'] else [c]) ++ "\""

def bomUtf8 : String := "\uFEFF"

/-- The cells of a line, between separators. -/
def ligne (separateur : String) (cellules : List String) : String :=
  separateur.intercalate (cellules.map celluleCsv)

/-- A header and its lines, after the BOM. -/
def fichier (finDeLigne : String) (entete : String) (lignes : List String) : String :=
  bomUtf8 ++ finDeLigne.intercalate (entete :: lignes)

example : celluleCsv "+224 620 00 00 99" = "\"+224 620 00 00 99\"" := by decide +kernel

example : celluleCsv "+SOMME(A1)" = "\"'+SOMME(A1)\"" := by decide +kernel

example : celluleCsv "Dit \"bonjour\"" = "\"Dit \"\"bonjour\"\"\"" := by decide +kernel

end Csv

end OumraHajj
