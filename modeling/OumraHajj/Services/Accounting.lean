import OumraHajj.Common.Csv
import OumraHajj.Common.Iso
import OumraHajj.Common.Money
import OumraHajj.Services.Accounts

/-!
# The accounting journal

`AccountingExportService.getJournal` (`src/modules/payments/accounting-export.service.ts`): an entry
for each collection (`ENC`) and each refund (`REM`) of a period, selected by their dates, and the file
made of them. A day of the query (`AAAA-MM-JJ`, at midnight UTC) is its number.
-/

namespace OumraHajj

open Async

inductive AccountingJournal where
  | enc
  | rem
  deriving DecidableEq, Repr

structure AccountingEntryShape where
  date : Time
  journal : AccountingJournal
  pieceRef : String
  label : String
  debit : ℚ
  credit : ℚ
  currency : String
  method : PaymentMethod
  providerReference : String
  bookingId : BookingId
  installmentNumber : Nat
  pilgrimName : String
  packageTitle : String

structure AccountingExportQueryDto where
  «from» : Option Int := none
  «to» : Option Int := none

structure AccountingExportShape where
  «from» : Int
  «to» : Int
  currency : String
  totalCollected : ℚ
  totalRefunded : ℚ
  net : ℚ
  entries : List AccountingEntryShape

/-- `DEVISE_PAR_DEFAUT`. -/
def deviseParDefaut : String := "GNF"

/-- `PERIODE_MAX_JOURS`. -/
def periodeMaxJours : Int := 366

/-- The collection entry of a payment, when it was confirmed in the period. -/
def encEntry (debut finExclue : Time) (r : JournalRow) : List AccountingEntryShape :=
  match r.payment.confirmedAt with
  | some date =>
    if debut ≤ date ∧ date < finExclue then
      [{ date
         journal := .enc
         pieceRef := r.payment.receiptRef.getD ("RCPT-" ++ toString r.id)
         label := "Versement " ++ toString r.payment.installmentNumber ++ " — " ++
           r.pilgrimFullName ++ " — " ++ r.packageTitle
         debit := r.payment.amount
         credit := 0
         currency := r.payment.currency
         method := r.payment.method
         providerReference := r.payment.providerReference
         bookingId := r.payment.bookingId
         installmentNumber := r.payment.installmentNumber
         pilgrimName := r.pilgrimFullName
         packageTitle := r.packageTitle }]
    else []
  | none => []

/-- The refund entry of a payment, when it was refunded in the period. -/
def remEntry (debut finExclue : Time) (r : JournalRow) : List AccountingEntryShape :=
  match r.payment.refundedAt, r.payment.refundedAmount with
  | some date, some montant =>
    -- A refund of 0 is falsy in the source and has no entry.
    if montant ≠ 0 ∧ debut ≤ date ∧ date < finExclue then
      [{ date
         journal := .rem
         pieceRef := "REMB-" ++ toString r.id
         label := "Remboursement versement " ++ toString r.payment.installmentNumber ++ " — " ++
           r.pilgrimFullName ++ " — " ++ r.packageTitle
         debit := 0
         credit := montant
         currency := r.payment.currency
         method := r.payment.method
         providerReference := r.payment.providerReference
         bookingId := r.payment.bookingId
         installmentNumber := r.payment.installmentNumber
         pilgrimName := r.pilgrimFullName
         packageTitle := r.packageTitle }]
    else []
  | _, _ => []

/-- The entries of the payments, in their order. -/
def rawEntries (debut finExclue : Time) (paiements : List JournalRow) : List AccountingEntryShape :=
  paiements.flatMap fun r => encEntry debut finExclue r ++ remEntry debut finExclue r

namespace AccountingExportService

/-- The period asked for, or the current month until today. -/
def periode (query : AccountingExportQueryDto) : Req (Int × Int) := do
  let maintenant ← await .now
  let aujourdhui := jourDe maintenant
  let debut := query.from.getD (premierDuMois maintenant)
  let fin := query.«to».getD aujourdhui
  let ecart := fin - debut
  if ecart < 0 then .fail (.badRequest "La date de début doit précéder la date de fin")
  else if ecart ≥ periodeMaxJours then
    .fail (.badRequest "Période limitée à 366 jours par export")
  else return (debut, fin)

def getJournal (ownerId : UserId) (query : AccountingExportQueryDto) :
    Req AccountingExportShape := do
  let agency ← AgenciesService.findByOwnerOrFail ownerId
  let (jourDebut, jourFin) ← periode query
  let debut := minuit jourDebut
  let finExclue := minuit jourFin + jourMs
  let paiements ← await (.paymentFindManyForJournal agency.id debut finExclue)
  let entries := (rawEntries debut finExclue paiements).insertionSort fun a b => a.date ≤ b.date
  let totalCollected := arrondi (entries.map (·.debit)).sum
  let totalRefunded := arrondi (entries.map (·.credit)).sum
  return {
    «from» := jourDebut
    «to» := jourFin
    currency := (entries.head?.map (·.currency)).getD deviseParDefaut
    totalCollected
    totalRefunded
    net := arrondi (totalCollected - totalRefunded)
    entries }

/-! ### The file -/

/-- `LIBELLE_MOYEN`. -/
def libelleMoyen : PaymentMethod → String
  | .mobileMoneyOrange => "Orange Money"
  | .mobileMoneyMtn => "MTN Mobile Money"
  | .card => "Carte bancaire"

def libelleJournal : AccountingJournal → String
  | .enc => "ENC"
  | .rem => "REM"

/-- `JJ/MM/AAAA`; of a year with a sign, `versJour` keeps no third part. -/
def dateFr (date : Time) : String :=
  let morceaux := ((versJour date).toList.splitOn '-').map String.ofList
  let morceau (i : Nat) := (morceaux[i]?).getD "undefined"
  morceau 2 ++ "/" ++ morceau 1 ++ "/" ++ morceau 0

/-- The characters of `montant.toFixed(2)`, for amounts below `10 ^ 21`. -/
def toFixed2 (montant : ℚ) : List Char :=
  let chiffres := Iso.padStart 3 (mathRound (|montant| * 100)).toNat
  let entiers := chiffres.length - 2
  (if montant < 0 then ['-'] else []) ++ chiffres.take entiers ++ '.' :: chiffres.drop entiers

/-- A decimal comma, and nothing for an amount of 0. -/
def montantFr (montant : ℚ) : String :=
  if montant = 0 then "" else String.ofList ((toFixed2 montant).replace '.' ',')

example : dateFr 1767225600000 = "01/01/2026" := by decide +kernel

example : montantFr (5 / 2) = "2,50" := by decide +kernel

/-- The cells of an entry. -/
def cellules (e : AccountingEntryShape) : List String :=
  [dateFr e.date, libelleJournal e.journal, e.pieceRef, e.label, montantFr e.debit,
    montantFr e.credit, e.currency, libelleMoyen e.method, e.providerReference,
    toString e.bookingId, toString e.installmentNumber, e.pilgrimName, e.packageTitle]

def titres : List String :=
  ["Date", "Journal", "N° pièce", "Libellé", "Débit", "Crédit", "Devise", "Moyen de paiement",
    "Référence prestataire", "Réservation", "Versement", "Pèlerin", "Forfait"]

def getJournalCsv (ownerId : UserId) (query : AccountingExportQueryDto) : Req String := do
  let journal ← getJournal ownerId query
  return Csv.fichier "\r\n" (Csv.ligne ";" titres)
    (journal.entries.map fun e => Csv.ligne ";" (cellules e))

end AccountingExportService

end OumraHajj
