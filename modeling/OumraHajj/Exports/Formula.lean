import OumraHajj.Audit.Service
import OumraHajj.Exports.Cells
import OumraHajj.Reviews.Service
import OumraHajj.Services.Accounting
import OumraHajj.Services.Requests
import OumraHajj.Tenancy.Store

/-!
# No formula in an export

The five files of the application. Four of them are written with `celluleCsv`, so no text in the database
makes a formula in them. The report of satisfaction is written with `escapeCsv`, which doubles the quotes
and no more: a comment that starts like a formula is one. `surs_iff`: a file is `Sur` for any database,
except this one, which is if and only if the comments are `Sain` (`Convient`).
-/

namespace OumraHajj.Exports

open Async Rfc4180

/-- The database with what the exports read. -/
structure Store where
  base : Tenancy.Store := {}
  auditLogs : Table Audit.AuditLog := []
  reviews : Table Reviews.Review := []

namespace Store

variable (s : Store)

def app : Db := s.base.groups.app

/-- What the statements of the audit trail act on. -/
def audit : Audit.Store := ⟨s.app.users, s.auditLogs⟩

/-- What the statements of the reviews act on. -/
def avis : Reviews.Store := ⟨s.app, s.reviews⟩

end Store

/-- The exports, with what is asked for. -/
inductive Export where
  | roomingList (ownerId : UserId) (blockId : Rooms.RoomBlockId)
  | roster (requesterId : UserId) (requesterRole : Role) (groupId : Groups.GroupId)
  | journal (ownerId : UserId) (query : AccountingExportQueryDto)
  | auditTrail (query : Audit.ListAuditQueryDto)
  | satisfactionReport (ownerId : UserId)

/-- What separates the cells of the file. -/
def Export.separateur : Export → Char
  | .roomingList _ _ | .journal _ _ | .auditTrail _ => ';'
  | .roster _ _ _ | .satisfactionReport _ => ','

/-- The export writes the file. -/
def Ecrit (localeCompare : String → String → Bool) (nombre : ℚ → String) (s : Store) :
    Export → String → Prop
  | .roomingList ownerId blockId, texte =>
    ∃ s', Rooms.backend.Runs (Rooms.RoomsService.getRoomingListCsv ownerId blockId) s.base.rooms
      (.ok texte) s'
  | .roster requesterId requesterRole groupId, texte =>
    ∃ s', Groups.backend.Runs (Groups.GroupRosterService.getRosterCsv localeCompare requesterId
      requesterRole groupId) s.base.groups (.ok texte) s'
  | .journal ownerId query, texte =>
    ∃ s', prisma.Runs (AccountingExportService.getJournalCsv ownerId query) s.app (.ok texte) s'
  | .auditTrail query, texte =>
    ∃ s', Audit.backend.Runs (Audit.AuditService.exportCsv nombre query) s.audit (.ok texte) s'
  | .satisfactionReport ownerId, texte =>
    ∃ s', Reviews.backend.Runs (Reviews.ReviewsService.getSatisfactionReportCsv ownerId) s.avis
      (.ok texte) s'

/-- No formula is in the comment, and the date is of a year of four digits. -/
def AvisSain (r : Reviews.Review) : Prop :=
  Sain (r.comment.getD "") ∧ 0 ≤ Iso.anneeDe r.createdAt ∧ Iso.anneeDe r.createdAt ≤ 9999

/-- The condition on the database (module doc). -/
def Convient (s : Store) : Export → Prop
  | .satisfactionReport ownerId =>
    ∀ agencyId agency, s.app.agencyOf ownerId = some (agencyId, agency) →
      ∀ r ∈ s.reviews, r.agencyId = agencyId → AvisSain r
  | _ => True

/-! ## The files of `celluleCsv` -/

section Fichiers

variable {S : Sig} {St Env α : Type} {B : Backend S St Env}

/-- An export writes what it makes of what it reads. -/
theorem texte_of_runs {p : Prog S Erreur α} {f : α → String} {s s' : St} {texte : String}
    (h : B.Runs (p.bind fun a => .ret (f a)) s (.ok texte) s') : ∃ a, texte = f a := by
  rcases Backend.runs_bind.mp h with ⟨a, s₁, -, hret, -⟩ | ⟨e, -, he⟩
  · exact ⟨a, Except.ok.inj hret⟩
  · cases he

instance (sep c : Char) : Decidable (Plain sep c) := inferInstanceAs (Decidable (_ ∧ _))

/-- A header whose titles are not between quotes. -/
theorem record_titres {titres : List String} (hne : titres ≠ [])
    (h : titres.all (fun titre => titre.toList.all fun c => decide (Plain ',' c)) = true) :
    Record ',' (",".intercalate titres).toList titres := by
  have hfields : List.Forall₂ (Field ',') (titres.map String.toList) titres := by
    rw [List.forall₂_map_left_iff, List.forall₂_same]
    intro titre ht
    have htitre := List.all_eq_true.mp (List.all_eq_true.mp h titre ht)
    exact field_plain fun c hc => of_decide_eq_true (htitre c hc)
  rw [String.toList_intercalate]
  exact record_intercalate (by decide) hfields (by simpa using hne)

/-- The rooming list has a line for each room and occupant. -/
theorem lignesOccupants_eq (bloc : Rooms.RoomBlockShape) : Rooms.lignesOccupants bloc =
    (bloc.rooms.flatMap fun chambre => chambre.occupants.map fun o => (chambre, o)).map
      fun x => Rooms.ligneOccupant bloc x.1 x.2 := by
  simp only [Rooms.lignesOccupants, List.map_flatMap, List.map_map]
  rfl

theorem sur_roomingList (bloc : Rooms.RoomBlockShape) (titres : List String)
    (htitres : 2 ≤ titres.length) :
    Sur ';' (Csv.fichier "\r\n" (Csv.ligne ";" titres) (Rooms.lignesOccupants bloc)) := by
  rw [lignesOccupants_eq]
  refine sur_fichier (by decide) (by decide) rfl (.inr rfl) (record_ligne (by decide) rfl ?_)
    (by rwa [List.length_map]) fun x _ => by simp
  rintro rfl
  simp at htitres

theorem sur_roster (membres : List Groups.GroupRosterMemberShape) :
    Sur ',' (Csv.fichier "\n" Groups.GroupRosterService.entete (membres.map fun m =>
      Csv.ligne "," ((Groups.GroupRosterService.cellules m).map (·.getD "")))) := by
  have hentete : Record ',' Groups.GroupRosterService.entete.toList _ :=
    record_titres (by decide) (by decide +kernel)
  exact sur_fichier (by decide) (by decide) rfl (.inl rfl) hentete (by decide) fun m _ => by
    simp [Groups.GroupRosterService.cellules]

theorem sur_journal (entries : List AccountingEntryShape) :
    Sur ';' (Csv.fichier "\r\n" (Csv.ligne ";" AccountingExportService.titres)
      (entries.map fun e => Csv.ligne ";" (AccountingExportService.cellules e))) :=
  sur_fichier (by decide) (by decide) rfl (.inr rfl) (record_ligne (by decide) rfl (by decide))
    (by decide) fun e _ => by simp [AccountingExportService.cellules]

theorem sur_auditTrail (nombre : ℚ → String) (lignes : List Audit.AuditLogShape) :
    Sur ';' (Csv.fichier "\r\n" (Csv.ligne ";" Audit.AuditService.titres) (lignes.map fun l =>
      Csv.ligne ";" ((Audit.AuditService.cellules nombre l).map (·.getD "")))) :=
  sur_fichier (by decide) (by decide) rfl (.inr rfl) (record_ligne (by decide) rfl (by decide))
    (by decide) fun l _ => by simp [Audit.AuditService.cellules]

end Fichiers

/-! ## The report of satisfaction -/

section Rapport

open Reviews (SatisfactionReportReview)
open Reviews.ReviewsService (header escapeCsv)

/-- The text of the report of some reviews. -/
def rapport (avis : List SatisfactionReportReview) : String :=
  "\n".intercalate (header :: avis.map fun r => ",".intercalate (Reviews.ReviewsService.cellules r))

/-- What a review of a list is in the report. -/
def resume (x : Reviews.ReviewId × Reviews.Review) : SatisfactionReportReview :=
  ⟨x.2.rating, x.2.comment, x.2.createdAt⟩

/-- The cells of a review, as they are read. -/
def lues (r : SatisfactionReportReview) : List String :=
  [toISOString r.createdAt, toString r.rating, r.comment.getD ""]

theorem plain_isDigit {c : Char} (h : c.isDigit = true) : Plain ',' c := by
  refine ⟨?_, ?_, ?_, ?_⟩ <;> (rintro rfl; exact absurd h (by decide))

theorem field_toString (a : Int) : Field ',' (toString a).toList (toString a) := by
  refine field_plain fun c hc => ?_
  rw [toString_toList] at hc
  split at hc
  · exact plain_isDigit (isDigit_toDigits hc)
  · rcases List.mem_cons.mp hc with rfl | hc
    · decide
    · exact plain_isDigit (isDigit_toDigits hc)

theorem field_toISOString (t : Time) : Field ',' (toISOString t).toList (toISOString t) := by
  refine field_plain fun c hc => ?_
  unfold toISOString at hc
  rw [String.toList_ofList] at hc
  have hseparateurs : Iso.separateurs.all (fun d => decide (Plain ',' d)) = true := by decide
  rcases Iso.caracteres_mem hc with h | h
  · exact plain_isDigit h
  · exact of_decide_eq_true (List.all_eq_true.mp hseparateurs c h)

theorem field_escapeCsv (v : String) : Field ',' (escapeCsv v).toList v := by
  have hv : (escapeCsv v).toList = escape v.toList := by
    have hquote : "\"".toList = ['"'] := rfl
    unfold escapeCsv escape doubled
    simp only [String.toList_append, String.toList_ofList, hquote, List.cons_append, List.nil_append]
  rw [hv]
  exact field_escape v

theorem record_avis (r : SatisfactionReportReview) :
    Record ',' (",".intercalate (Reviews.ReviewsService.cellules r)).toList (lues r) := by
  rw [String.toList_intercalate]
  refine record_intercalate (by decide) ?_ (List.cons_ne_nil _ _)
  exact .cons (field_toISOString _) (.cons (field_toString _) (.cons (field_escapeCsv _) .nil))

/-- A rating is not computed: a negative one is a sign and digits. -/
theorem sain_toString (a : Int) : Sain (toString a) := by
  have h := toString_toList a
  split at h
  · obtain ⟨c, l, hl⟩ := List.exists_cons_of_ne_nil (Nat.toDigits_ne_nil (n := a.toNat) (b := 10))
    refine sain_of_isDigit (h.trans hl) (isDigit_toDigits (n := a.toNat) ?_)
    rw [hl]
    exact List.mem_cons_self
  · exact (sain_cons h).mpr ⟨by decide, fun _ d hd => .inl (isDigit_toDigits hd)⟩

/-- A date is not computed if and only if its year has no sign. -/
theorem sain_toISOString (t : Time) :
    Sain (toISOString t) ↔ 0 ≤ Iso.anneeDe t ∧ Iso.anneeDe t ≤ 9999 := by
  have hlist : ∃ reste, (toISOString t).toList = Iso.annee (Iso.anneeDe t) ++ reste ∧ 'T' ∈ reste := by
    unfold toISOString Iso.caracteres Iso.anneeDe
    simp only [String.toList_ofList, List.append_assoc]
    exact ⟨_, rfl, by simp⟩
  obtain ⟨reste, hreste, hT⟩ := hlist
  by_cases h : 0 ≤ Iso.anneeDe t ∧ Iso.anneeDe t ≤ 9999
  · obtain ⟨c, l, hl, hc⟩ := Iso.annee_of_quatre h
    rw [hl] at hreste
    exact iff_of_true (sain_of_isDigit hreste hc) h
  · obtain ⟨c, l, hl, hc⟩ := Iso.annee_of_not h
    rw [hl] at hreste
    refine iff_of_false (fun hsain => ?_) h
    have := ((sain_cons hreste).mp hsain).2 (by simpa using hc) 'T' (List.mem_append_right _ hT)
    revert this
    decide

theorem dropBom_rapport (avis : List SatisfactionReportReview) :
    dropBom (rapport avis).toList = (rapport avis).toList := by
  have hhead : ∃ l, (rapport avis).toList = 'd' :: l := by
    have hheader : header.toList = 'd' :: "ate,note,commentaire".toList := by decide +kernel
    unfold rapport
    rw [String.toList_intercalate, List.map_cons, hheader]
    rcases avis with _ | ⟨r, avis⟩
    · rw [List.map_nil, List.map_nil, List.intercalate_singleton]
      exact ⟨_, rfl⟩
    · rw [List.map_cons, List.map_cons, List.intercalate_cons_cons]
      exact ⟨_, rfl⟩
  obtain ⟨l, hl⟩ := hhead
  rw [hl]
  rfl

/-- What a spreadsheet reads in the report. -/
theorem decode_rapport (avis : List SatisfactionReportReview) :
    decode ',' (rapport avis) = some (["date", "note", "commentaire"] :: avis.map lues) := by
  have hcorps : List.Forall₂ (fun ligne vs => Row ',' ligne.toList vs)
      (avis.map fun r => ",".intercalate (Reviews.ReviewsService.cellules r)) (avis.map lues) := by
    rw [List.forall₂_map_left_iff, List.forall₂_map_right_iff, List.forall₂_same]
    exact fun r _ => (record_avis r).row (ne_singleton (by simp [lues]))
  have hentete : Record ',' header.toList ["date", "note", "commentaire"] :=
    record_titres (by decide) (by decide +kernel)
  exact decode_lignes (by decide) (.inl rfl) (dropBom_rapport avis)
    (.cons (hentete.row (by decide)) hcorps) (List.cons_ne_nil _ _)

theorem sur_rapport (avis : List (Reviews.ReviewId × Reviews.Review)) :
    Sur ',' (rapport (avis.map resume)) ↔ ∀ x ∈ avis, AvisSain x.2 := by
  unfold Sur
  rw [decode_rapport]
  simp only [Option.some.injEq, exists_eq_left', List.tail_cons, List.map_map, List.forall_mem_map]
  refine forall₂_congr fun x _ => ?_
  simp only [Function.comp_apply, lues, resume, List.forall_mem_cons, List.not_mem_nil,
    false_imp_iff, implies_true, and_true, sain_toISOString, sain_toString, true_and]
  exact And.comm

theorem satisfaction_runs {ownerId : UserId} {s s' : Reviews.Store} {texte : String} :
    Reviews.backend.Runs (Reviews.ReviewsService.getSatisfactionReportCsv ownerId) s (.ok texte) s' ↔
      s' = s ∧ ∃ agencyId agency, s.app.agencyOf ownerId = some (agencyId, agency) ∧
        texte = rapport ((s.listeDe agencyId).map resume) := by
  constructor
  · rintro ⟨e, h⟩
    rcases ha : s.app.agencyOf ownerId with _ | ⟨agencyId, agency⟩
    · have hanswer : (Reviews.backend.exec (.inl (.agencyFindUnique ownerId)) e s).1 = none := ha
      rw [hanswer] at h
      cases h.1
    · have hanswer : (Reviews.backend.exec (.inl (.agencyFindUnique ownerId)) e s).1 =
        some (agencyId, agency) := ha
      rw [hanswer] at h
      obtain ⟨_, _, htexte, rfl⟩ := h
      exact ⟨rfl, agencyId, agency, rfl, Except.ok.inj htexte⟩
  · rintro ⟨rfl, agencyId, agency, ha, rfl⟩
    refine ⟨{}, ?_⟩
    have hanswer : (Reviews.backend.exec (.inl (.agencyFindUnique ownerId)) {} s').1 =
      some (agencyId, agency) := ha
    rw [hanswer]
    exact ⟨{}, {}, rfl, rfl⟩

theorem mem_listeDe {s : Reviews.Store} {agencyId : AgencyId} {r : Reviews.Review} :
    (∃ id, (id, r) ∈ s.listeDe agencyId) ↔ r ∈ s.reviews ∧ r.agencyId = agencyId := by
  rw [List.mem_iff_getElem? (l := s.reviews)]
  simp only [Reviews.Store.listeDe, List.mem_insertionSort, Table.findMany, List.mem_filter,
    Table.mem_withIds, decide_eq_true_eq, exists_and_right]

/-- The reports of an agency are without formulas if and only if its reviews are. -/
theorem satisfaction_surs {ownerId : UserId} {s : Reviews.Store} :
    (∀ texte s', Reviews.backend.Runs (Reviews.ReviewsService.getSatisfactionReportCsv ownerId) s
      (.ok texte) s' → Sur ',' texte) ↔
      ∀ agencyId agency, s.app.agencyOf ownerId = some (agencyId, agency) →
        ∀ r ∈ s.reviews, r.agencyId = agencyId → AvisSain r := by
  constructor
  · intro h agencyId agency ha r hr hagency
    have hsur := h _ _ (satisfaction_runs.mpr ⟨rfl, agencyId, agency, ha, rfl⟩)
    obtain ⟨id, hid⟩ := mem_listeDe.mpr ⟨hr, hagency⟩
    exact (sur_rapport _).mp hsur _ hid
  · intro h texte s' hrun
    obtain ⟨-, agencyId, agency, ha, rfl⟩ := satisfaction_runs.mp hrun
    refine (sur_rapport _).mpr fun x hx => ?_
    obtain ⟨hr, hagency⟩ := mem_listeDe.mp ⟨x.1, hx⟩
    exact h agencyId agency ha x.2 hr hagency

end Rapport

/-- **An export has no formula exactly where it is not the report of satisfaction or no review of the
agency has one** (module doc). -/
theorem surs_iff (localeCompare : String → String → Bool) (nombre : ℚ → String) (s : Store)
    (x : Export) :
    (∀ texte, Ecrit localeCompare nombre s x texte → Sur x.separateur texte) ↔ Convient s x := by
  cases x with
  | roomingList ownerId blockId =>
    refine iff_of_true ?_ trivial
    rintro texte ⟨s', h⟩
    obtain ⟨bloc, rfl⟩ := texte_of_runs h
    exact sur_roomingList bloc _ (by decide)
  | roster requesterId requesterRole groupId =>
    refine iff_of_true ?_ trivial
    rintro texte ⟨s', h⟩
    obtain ⟨liste, rfl⟩ := texte_of_runs h
    exact sur_roster liste.members
  | journal ownerId query =>
    refine iff_of_true ?_ trivial
    rintro texte ⟨s', h⟩
    obtain ⟨journal, rfl⟩ := texte_of_runs h
    exact sur_journal journal.entries
  | auditTrail query =>
    refine iff_of_true ?_ trivial
    rintro texte ⟨s', h⟩
    obtain ⟨lignes, rfl⟩ := texte_of_runs h
    exact sur_auditTrail nombre lignes
  | satisfactionReport ownerId =>
    simp only [Ecrit, forall_exists_index]
    exact satisfaction_surs

private theorem note_maximale : 1 ≤ (5 : Int) ∧ (5 : Int) ≤ 5 := by decide

/-- A pilgrim whose booking is confirmed gives his review. -/
private def commente : Store :=
  let app : Db := { Db.exemple with bookings := [{ Booking.exemple with status := .confirmed }] }
  { base := { groups := { app } }
    reviews := (Reviews.backend.eval {} (Reviews.ReviewsService.create 0
      ⟨0, 5, some "=1+1", note_maximale⟩) ⟨app, []⟩).2.reviews }

private theorem commente_reviews : commente.reviews = [⟨0, 0, 0, 5, some "=1+1", 0⟩] := rfl

/-- The agency exports a formula that a pilgrim wrote. -/
theorem injecte : ¬ ∀ (localeCompare : String → String → Bool) (nombre : ℚ → String) (s : Store)
    (x : Export) (texte : String), Ecrit localeCompare nombre s x texte → Sur x.separateur texte := by
  intro h
  have hsurs := satisfaction_surs.mp fun texte s' hrun =>
    h (fun _ _ => true) (fun _ => "") commente (.satisfactionReport 1) texte ⟨s', hrun⟩
  have havis := hsurs 0 _ rfl ⟨0, 0, 0, 5, some "=1+1", 0⟩ (by
    show _ ∈ commente.reviews
    rw [commente_reviews]
    exact List.mem_singleton_self _) rfl
  exact absurd havis.1 (by decide +kernel)

end OumraHajj.Exports
