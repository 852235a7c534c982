/-!
# Enumerations of the application

`src/common/enums`, which the Prisma schema repeats. `values` lists the members in the order of
`Object.values`.
-/

namespace OumraHajj

inductive Role where
  | pilgrim
  | agency
  | guide
  | admin
  deriving DecidableEq, Repr

inductive AgencyValidationStatus where
  | pending
  | approved
  | rejected
  deriving DecidableEq, Repr

inductive PilgrimageType where
  | oumra
  | hadj
  deriving DecidableEq, Repr

inductive PackageStatus where
  | open
  | full
  | closed
  deriving DecidableEq, Repr

inductive BookingStatus where
  | pendingPayment
  | confirmed
  | cancelled
  | completed
  deriving DecidableEq, Repr

inductive DossierStepKey where
  | payment
  | visa
  | flight
  | vaccination
  | documents
  deriving DecidableEq, Repr

inductive DossierStepStatus where
  | pending
  | inProgress
  | done
  deriving DecidableEq, Repr

inductive PaymentMethod where
  | mobileMoneyOrange
  | mobileMoneyMtn
  | card
  deriving DecidableEq, Repr

inductive PaymentStatus where
  | pending
  | succeeded
  | failed
  | refunded
  deriving DecidableEq, Repr

inductive PilgrimDocumentType where
  | passport
  | visa
  | flightTicket
  | vaccinationCertificate
  deriving DecidableEq, Repr

def PilgrimDocumentType.values : List PilgrimDocumentType :=
  [.passport, .visa, .flightTicket, .vaccinationCertificate]

inductive PilgrimDocumentStatus where
  | pending
  | validated
  | rejected
  deriving DecidableEq, Repr

inductive NotificationType where
  | bookingStatus
  | payment
  | document
  | riteReminder
  | sos
  | groupMessage
  | moderation
  | other
  deriving DecidableEq, Repr

end OumraHajj
