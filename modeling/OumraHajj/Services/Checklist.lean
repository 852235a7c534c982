import OumraHajj.Services.Accounts

/-!
# The standard checklist

`ChecklistService.generateStandardChecklist` (`src/modules/checklist/checklist.service.ts`).
-/

namespace OumraHajj

open Async

namespace ChecklistService

/-- `stages.sort((a, b) => a.startDate - b.startDate)[0].startDate`, or two months from now. -/
def departureDate (stages : List PackageStage) (maintenant : Time) : Time :=
  match (stages.map (·.startDate)).insertionSort (· ≤ ·) with
  | t :: _ => t
  | [] => addMonths maintenant 2

/-- The items of the standard checklist. -/
def standardItems (bookingId : BookingId) (departure : Time) : List ChecklistItem :=
  [ { bookingId, title := "Vérifier la validité du passeport (6 mois min)", category := "document"
      reminderDate := some (addDays departure (-30)) },
    { bookingId, title := "Effectuer le vaccin contre la méningite", category := "vaccine"
      reminderDate := some (addDays departure (-15)) },
    { bookingId, title := "Préparer la valise", category := "luggage"
      reminderDate := some (addDays departure (-7)) },
    { bookingId, title := "Faire ses adieux et prières (salat al-safar)", category := "spiritual"
      reminderDate := some departure } ]

def generateStandardChecklist (bookingId : BookingId) : Req Unit := do
  match ← await (.bookingFindUniqueWithPackage bookingId) with
  | none => return ()
  | some (_, pkg) =>
    let maintenant ← await .now
    await (.checklistItemCreateMany
      (standardItems bookingId (departureDate pkg.stages maintenant)))

end ChecklistService

end OumraHajj
