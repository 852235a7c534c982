import Mathlib.Data.Rat.Defs
import OumraHajj.Common.Dates

/-!
# Errors and texts

`Erreur`: the errors that a handler ends with: the HTTP exceptions of NestJS with their message,
a rejected Prisma statement with its code, and a failed call of an outside service.

`Texte`: a text built by a template literal, as the list of its pieces, so that the values in it
(an amount, a date) stay values and their formatting stays outside the model.
-/

namespace OumraHajj

inductive Erreur where
  | notFound (message : String)
  | forbidden (message : String)
  | conflict (message : String)
  | badRequest (message : String)
  | unauthorized (message : String)
  | serviceUnavailable (message : String)
  /-- `PrismaClientKnownRequestError`: `P2025` (no such row), `P2002` (a unique constraint). -/
  | prisma (code : String)
  /-- The payment provider rejected the call. -/
  | provider
  /-- An error that is no HTTP exception: a failed sending, an invalid URL. -/
  | autre (nom : String)
  deriving DecidableEq, Repr

/-- The requester may not do it, or what it is about does not exist. -/
def Erreur.Refus : Erreur → Prop
  | .notFound _ => True
  | .forbidden _ => True
  | .unauthorized _ => True
  | _ => False

theorem Erreur.refus_notFound (message : String) : (Erreur.notFound message).Refus := trivial

theorem Erreur.refus_forbidden (message : String) : (Erreur.forbidden message).Refus := trivial

/-- A piece of a template literal. -/
inductive Fragment where
  | txt (s : String)
  | nombre (x : ℚ)
  /-- `formatGnf`. -/
  | gnf (montant : ℚ)
  /-- `formatDate`. -/
  | date (t : Time)
  deriving DecidableEq

abbrev Texte := List Fragment

end OumraHajj
