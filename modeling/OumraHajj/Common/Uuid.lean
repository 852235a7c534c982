import Mathlib.Data.List.Basic

/-!
# UUIDs

The text of a UUID, as `randomUUID()` and the database write it: 32 hexadecimal digits in five groups.
-/

namespace OumraHajj

/-- The digits of a UUID. -/
def hexDigits : List Char := "0123456789abcdef".toList

structure Uuid where
  texte : String
  groupes : (texte.toList.splitOn '-').map List.length = [8, 4, 4, 4, 12]
  chiffres : ∀ c ∈ texte.toList, c = '-' ∨ c ∈ hexDigits

namespace Uuid

def zeroTexte : String := "00000000-0000-0000-0000-000000000000"

theorem zeroTexte_groupes : (zeroTexte.toList.splitOn '-').map List.length = [8, 4, 4, 4, 12] := by
  decide +kernel

theorem zeroTexte_chiffres (c : Char) (h : c ∈ zeroTexte.toList) : c = '-' ∨ c ∈ hexDigits := by
  have hall : (zeroTexte.toList.all fun c => c = '-' ∨ c ∈ hexDigits) = true := by decide +kernel
  exact of_decide_eq_true (List.all_eq_true.mp hall c h)

/-- The UUID of zeros. -/
def zero : Uuid := ⟨zeroTexte, zeroTexte_groupes, zeroTexte_chiffres⟩

theorem notMem (u : Uuid) {c : Char} (h : c ∉ '-' :: hexDigits) : c ∉ u.texte.toList := by
  intro hc
  rcases u.chiffres c hc with rfl | hdigit
  · exact h List.mem_cons_self
  · exact h (List.mem_cons_of_mem _ hdigit)

end Uuid

end OumraHajj
