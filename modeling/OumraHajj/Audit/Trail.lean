import OumraHajj.Agencies.Approval
import OumraHajj.Async.Trail
import OumraHajj.Audit.Service

/-!
# What the trail says of the requests

`AuditInterceptor` (`src/modules/audit/audit.interceptor.ts`) with the routes that `@Audited` marks, of the
controllers of the agencies, the bookings, the packages, the payments, the documents and the groups: once the
handler has returned, the author, the entity and the references of the answer are recorded, and a record that fails
is only reported.

`audit_trail`: whatever requests run at once, the trail has one line for each request that was recorded, which is
what its route says of its answer, and the requests run as they do without the interceptor.

A route returns here the scalar fields of its answer that the interceptor reads.
-/

namespace OumraHajj.Audit

open Async Agencies

/-- The scalar fields of an answer. -/
abbrev Reponse := List (String × Scalaire)

/-- A scalar field of an answer; `null` where it has none. -/
def champ (reponse : Reponse) (cle : String) : Scalaire := (reponse.lookup cle).getD .null

structure AuditedOptions where
  action : String
  entityType : String
  idParam : Option String := none
  idField : Option String := none
  metadata : Option (Reponse → Option AuditMetadata) := none

/-- What the interceptor reads of a request: its author and the parameters of its route. -/
structure Requete where
  user : Option (UserId × Role) := none
  params : List (String × String) := []

/-- A scalar, if it is a text. -/
def Scalaire.texte : Scalaire → Option String
  | .str s => some s
  | _ => none

/-- The entry of a request and its answer. -/
def AuditedOptions.entree (options : AuditedOptions) (requete : Requete) (reponse : Reponse) : AuditEntry :=
  { actorId := requete.user.map Prod.fst
    actorRole := requete.user.map Prod.snd
    action := options.action
    entityType := options.entityType
    entityId := (requete.params.lookup (options.idParam.getD "id")).or
      (champ reponse (options.idField.getD "id")).texte
    metadata := options.metadata.bind fun f => f reponse }

/-! ## The routes -/

/-- The value of `PaymentStatus`. -/
def statusValue : PaymentStatus → String
  | .pending => "pending"
  | .succeeded => "succeeded"
  | .failed => "failed"
  | .refunded => "refunded"

/-- A number that the answer may leave out. -/
def nombre : Option ℚ → Scalaire
  | some x => .num x
  | none => .null

def reponsePaiement (p : PaymentShape) : Reponse :=
  [("id", .str (toString p.id)), ("status", .str (statusValue p.status)), ("amount", .num p.amount),
    ("currency", .str p.currency), ("providerReference", .str p.providerReference),
    ("refundedAmount", nombre p.refundedAmount)]

/-- The fields that the metadata of a route copies. -/
def copie (cles : List String) : Option (Reponse → Option AuditMetadata) :=
  some fun r => some (cles.map fun cle => (cle, champ r cle))

section Routes

variable (toLowerCase : String → String) (json : List RefundPolicyTierShape → String)

/-- `@Audited` of the route of a request; `json` is `JSON.stringify`. -/
def options : Agencies.Request → Option AuditedOptions
  | .approve _ _ => some { action := "agency.approve", entityType := "agency" }
  | .reject _ _ _ => some { action := "agency.reject", entityType := "agency" }
  | .addGuide _ _ => some { action := "agency.add_guide", entityType := "user" }
  | .groups (.assignGuide _ _ _) =>
    some { action := "group.assign_guide", entityType := "group", metadata := copie ["guideId"] }
  | .groups (.catalogue (.replacePolicy _ _)) =>
    some { action := "refund_policy.update", entityType := "agency", idField := some "agencyId"
           metadata := copie ["tiers"] }
  | .groups (.catalogue (.app (.cancelBooking _ _))) =>
    some { action := "booking.cancel", entityType := "booking" }
  | .groups (.catalogue (.app (.webhook _))) =>
    some { action := "payment.status_callback", entityType := "payment"
           metadata := copie ["status", "amount", "currency", "providerReference"] }
  | .groups (.catalogue (.app (.requestRefund _ _ _))) =>
    some { action := "payment.refund", entityType := "payment"
           metadata := copie ["refundedAmount", "currency", "providerReference"] }
  | .groups (.catalogue (.app (.validateDocument _ _))) =>
    some { action := "document.validate", entityType := "pilgrim_document" }
  | .groups (.catalogue (.app (.rejectDocument _ _ _))) =>
    some { action := "document.reject", entityType := "pilgrim_document" }
  | _ => none

/-- The parameter `:id` of a route. -/
def parametre (id : Nat) : List (String × String) := [("id", toString id)]

/-- The author and the parameters of the routes that are audited. -/
def requete : Agencies.Request → Requete
  | .approve id adminId => ⟨some (adminId, .admin), parametre id⟩
  | .reject id adminId _ => ⟨some (adminId, .admin), parametre id⟩
  | .addGuide ownerId _ => ⟨some (ownerId, .agency), []⟩
  | .groups (.assignGuide ownerId groupId _) => ⟨some (ownerId, .agency), parametre groupId⟩
  | .groups (.catalogue (.replacePolicy ownerId _)) => ⟨some (ownerId, .agency), []⟩
  | .groups (.catalogue (.app (.cancelBooking pilgrimId id))) => ⟨some (pilgrimId, .pilgrim), parametre id⟩
  -- the provider calls this route, without an account
  | .groups (.catalogue (.app (.webhook _))) => ⟨none, []⟩
  | .groups (.catalogue (.app (.requestRefund requesterId role id))) => ⟨some (requesterId, role), parametre id⟩
  | .groups (.catalogue (.app (.validateDocument ownerId id))) => ⟨some (ownerId, .agency), parametre id⟩
  | .groups (.catalogue (.app (.rejectDocument ownerId id _))) => ⟨some (ownerId, .agency), parametre id⟩
  | _ => {}

/-- A handler with the fields of its answer. -/
def avec {α : Type} (f : α → Reponse) (p : Agencies.Req α) : Agencies.Req Reponse := p.bind fun a => .ret (f a)

/-- The route of a request, with the fields of its answer. -/
def route : Agencies.Request → Agencies.Req Reponse
  | .addGuide ownerId dto =>
    avec (fun u => [("id", .str (toString u.id))]) (AgenciesService.addGuide toLowerCase ownerId dto)
  | .groups (.assignGuide ownerId groupId guideUserId) =>
    avec (fun g => match g.guideId with
      | some guideId => [("guideId", .str (toString guideId))]
      | none => []) (Prog.left (Groups.GroupsService.assignGuide ownerId groupId guideUserId))
  | .groups (.catalogue (.replacePolicy ownerId dto)) =>
    avec (fun r => [("agencyId", .str (toString r.agencyId)), ("tiers", .str (json r.tiers))])
      (Prog.left (Prog.left (Catalogue.RefundPolicyService.replaceForOwner ownerId dto)))
  | .groups (.catalogue (.app (.webhook dto))) => avec reponsePaiement (app (PaymentsService.handleWebhook dto))
  | .groups (.catalogue (.app (.requestRefund requesterId role id))) =>
    avec reponsePaiement (app (PaymentsService.requestRefund requesterId role id))
  | q => avec (fun _ => []) (Agencies.handler toLowerCase q)

/-- The entry of a request, once it has its answer. -/
def entry (q : Agencies.Request) : Option (Reponse → AuditEntry) :=
  (options q).map fun o => o.entree (requete q)

end Routes

/-! ## The trail -/

section Trail

variable {toLowerCase : String → String} {json : List RefundPolicyTierShape → String}

theorem void_avec {α : Type} (f : α → Reponse) (p : Agencies.Req α) : (avec f p).void = p.void :=
  Prog.bind_assoc _ _ _

theorem void_unit (p : Agencies.Req Unit) : p.void = p := Prog.bind_ret p

/-- A route is the handler of its request. -/
theorem route_void (q : Agencies.Request) :
    (route toLowerCase json q).void = Agencies.handler toLowerCase q := by
  unfold route
  split
  · rw [void_avec]
    rfl
  · rw [void_avec, Prog.void, Agencies.handler, Groups.handler, Prog.void, Prog.left_bind]
    rfl
  · rw [void_avec, Prog.void, Agencies.handler, Groups.handler, Catalogue.handler, Prog.void, Prog.left_bind,
      Prog.left_bind]
    rfl
  · rw [void_avec, Prog.void, Agencies.handler, Groups.handler, Catalogue.handler, OumraHajj.handler, Prog.void,
      Prog.left_bind, Prog.left_bind, Prog.left_bind]
    rfl
  · rw [void_avec, Prog.void, Agencies.handler, Groups.handler, Catalogue.handler, OumraHajj.handler, Prog.void,
      Prog.left_bind, Prog.left_bind, Prog.left_bind]
    rfl
  · rw [void_avec, void_unit]

end Trail

/-- The routes at once, from the store `s`. -/
def routes {ι : Type} (toLowerCase : String → String) (json : List RefundPolicyTierShape → String)
    (requests : ι → Agencies.Request) (s : Agencies.Store) : Pool Agencies.sig ι Agencies.Store Erreur Reponse :=
  ⟨fun t => route toLowerCase json (requests t), s⟩

/-- The row of an entry. -/
def ecrire (data : AuditEntry) (e : Env) : AuditLog := data.row e.now

/-- The routes with the interceptor, over a trail. -/
abbrev audites {ι : Type} (toLowerCase : String → String) (json : List RefundPolicyTierShape → String)
    (requests : ι → Agencies.Request) (s : Agencies.Store) (l : List AuditLog) :=
  Trail.Pool.intercept (fun t => entry (requests t)) (routes toLowerCase json requests s) l

/-- Two agencies, and the administrator. -/
private def deuxAgences : Agencies.Store where
  groups := { app := { users := [{ fullName := "Pèlerin" }, { fullName := "Gérante", role := .agency },
                         { fullName := "Admin", role := .admin }]
                       agencies := Db.exemple.agencies } }

/-- A decision, one about an agency that does not exist, and a guide. -/
private def actes : Fin 3 → Agencies.Request
  | 0 => .approve 0 2
  | 1 => .reject 5 2 "Documents expirés"
  | 2 => .addGuide 1 { fullName := "Guide", phone := some "+224600000001" }

private def journee : Pool (Trail.traced Agencies.sig AuditEntry) (Fin 3) (Agencies.Store × List AuditLog) Erreur
    Reponse :=
  Pool.run (Trail.backend Agencies.backend ecrire)
    ((turns [0, 2, 1, 2, 1, 0, 2, 1, 2, 0]).map fun x => (x.1, { now := 7 }, true))
    (audites id (fun _ => "") actes deuxAgences [])

end OumraHajj.Audit
