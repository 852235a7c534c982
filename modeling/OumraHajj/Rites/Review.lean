import OumraHajj.Async.History
import OumraHajj.Async.Rely
import OumraHajj.Rites.Service

/-!
# Rite sheets are published as reviewed

Editors update the sheets while reviewers read and validate them. `validate` names the sheet and not its
version, so an update between the reading of a reviewer and his validation is published unread.
`publies_relus` is the result: what is published has been read, in every interleaving in which each
validation finds the content that its reviewer has read last (`SansDerive`).

The history `Lectures` records what each user has read last of each sheet (`findByIdOrFail`, `listAll`), and
what the user who validated a sheet last had read of it. It does not influence the run.
-/

namespace OumraHajj.Rites

open Async

/-- The columns that are shown to the pilgrims. -/
structure Contenu where
  key : String
  title : String
  pilgrimageType : RiteSheetPilgrimageType
  order : Nat
  content : String
  audioRef : Option String
  language : String
  deriving DecidableEq

def RiteSheetShape.contenu (x : RiteSheetShape) : Contenu :=
  { key := x.key
    title := x.title
    pilgrimageType := x.pilgrimageType
    order := x.order
    content := x.content
    audioRef := x.audioRef
    language := x.language }

/-- What has been read (module doc). -/
structure Lectures (ι : Type) where
  /-- What a user has read last of a sheet. -/
  lue : ι → RiteSheetId → Option RiteSheetShape := fun _ _ => none
  /-- What the user who validated a sheet last had read of it. -/
  relue : RiteSheetId → Option RiteSheetShape := fun _ => none

section History

variable {ι : Type} [DecidableEq ι]

namespace Lectures

/-- A user reads the sheets. -/
def lit (h : Lectures ι) (t : ι) (sheets : List (RiteSheetId × RiteSheet)) : Lectures ι :=
  { h with
    lue := Function.update h.lue t fun id =>
      ((sheets.find? (·.1 = id)).map fun x => toRiteSheetShape x.1 x.2).or (h.lue t id) }

/-- A user validates a sheet. -/
def valide (h : Lectures ι) (t : ι) (id : RiteSheetId) : Lectures ι :=
  { h with relue := Function.update h.relue id (h.lue t id) }

end Lectures

/-- What a statement adds to the history. -/
def note : Note sig ι Store (Lectures ι) := fun t c r _ h =>
  match c, r with
  | .riteSheetFindUnique id, some sheet => h.lit t [(id, sheet)]
  | .riteSheetFindMany w, some sheets => if w.isValidated = none then h.lit t sheets else h
  | .riteSheetUpdate id data, some _ => if data.isValidated then h.valide t id else h
  | _, _ => h

/-- What `listPublished` returns is what the user who validated it last had read. -/
def Relus (x : Store × Lectures ι) : Prop :=
  ∀ pilgrimageType language sheets s',
    backend.Runs (RiteSheetsService.listPublished pilgrimageType language) x.1 (.ok sheets) s' →
    ∀ sheet ∈ sheets, ∃ lue, x.2.relue sheet.id = some lue ∧ lue.contenu = sheet.contenu

/-- The sheet that a statement validates, and its reviewer. -/
def valide : Stmt → Option (RiteSheetId × UserId)
  | .riteSheetUpdate id data => if data.isValidated then data.validatedById.map (id, ·) else none
  | _ => none

/-- A validation finds the content that its reviewer has read last. -/
def SansDerive (c : (sig.tagged ι).Stmt) (x : Store × Lectures ι) (_ : Time) : Prop :=
  ∀ v ∈ valide c.2, x.1.users v.2 = true → ∀ sheet ∈ x.1.sheets[v.1]?,
    ∃ lue ∈ x.2.lue c.1 v.1, lue.contenu = (toRiteSheetShape v.1 sheet).contenu

instance (c : (sig.tagged ι).Stmt) (x : Store × Lectures ι) (e : Time) : Decidable (SansDerive c x e) :=
  inferInstanceAs (Decidable (∀ v ∈ valide c.2, _ → ∀ sheet ∈ x.1.sheets[v.1]?,
    ∃ lue ∈ x.2.lue c.1 v.1, _))

/-- The invariant: what `Relus` says, of the rows. -/
def Inv (x : Store × Lectures ι) : Prop :=
  ∀ id sheet, x.1.sheets[id]? = some sheet → sheet.isValidated = true →
    ∃ lue, x.2.relue id = some lue ∧ lue.contenu = (toRiteSheetShape id sheet).contenu

end History

/-! ## The statements of the service -/

/-- A sheet is created without a validation, and a validation leaves the content. -/
def Ecrit : Stmt → Prop
  | .riteSheetCreate data => data.isValidated = false
  | .riteSheetUpdate _ data => data.isValidated = true →
    data.validatedById.isSome = true ∧ ∀ id x x', data.apply x = some x' →
      (toRiteSheetShape id x').contenu = (toRiteSheetShape id x).contenu
  | _ => True

theorem updateSheet_ecrit {id : RiteSheetId} {data : RiteSheetUpdate}
    (h : Ecrit (.riteSheetUpdate id data)) : (RiteSheetsService.updateSheet id data).Uses Ecrit := by
  refine ⟨h, fun r => ?_⟩
  cases r <;> trivial

theorem validation_ecrit (id : RiteSheetId) (reviewerId : UserId) (now : Time) :
    Ecrit (.riteSheetUpdate id (RiteSheetsService.validation reviewerId now)) := by
  refine fun _ => ⟨rfl, fun i x x' hx => ?_⟩
  obtain rfl := Option.some.inj hx
  rfl

theorem action_ecrit (userId : UserId) (a : Action) : (action userId a).Uses Ecrit := by
  cases a with
  | create dto =>
    refine Prog.Uses.void ⟨rfl, fun r => ?_⟩
    rcases r with _ | ⟨id, sheet⟩ <;> trivial
  | update id dto => exact (updateSheet_ecrit (by rintro ⟨⟩)).void
  | validate id => exact Prog.Uses.void ⟨trivial, fun _ => updateSheet_ecrit (validation_ecrit _ _ _)⟩
  | findByIdOrFail id =>
    refine Prog.Uses.void ⟨trivial, fun r => ?_⟩
    cases r <;> trivial
  | listPublished pilgrimageType language =>
    refine Prog.Uses.void ⟨trivial, fun r => ?_⟩
    cases r <;> trivial
  | listAll =>
    refine Prog.Uses.void ⟨trivial, fun r => ?_⟩
    cases r <;> trivial

theorem session_ecrit (userId : UserId) (l : List Action) : (session userId l).Uses Ecrit := by
  induction l with
  | nil => trivial
  | cons a l ih =>
    have hcaught : ((action userId a).tryCatch fun _ => .ret ()).Uses Ecrit :=
      (action_ecrit userId a).tryCatch fun _ => trivial
    exact hcaught.bind fun _ => ih

/-! ## The invariant -/

section Invariant

variable {ι : Type} [DecidableEq ι] {x : Store × Lectures ι}

/-- The published sheets are the validated rows. -/
theorem listPublished_runs {pilgrimageType language : Option String} {sheets : List RiteSheetShape}
    {s s' : Store}
    (h : backend.Runs (RiteSheetsService.listPublished pilgrimageType language) s (.ok sheets) s') :
    ∀ shape ∈ sheets, ∃ id sheet, s.sheets[id]? = some sheet ∧ sheet.isValidated = true ∧
      shape = toRiteSheetShape id sheet := by
  obtain ⟨e, h⟩ := h
  simp only [backend, exec] at h
  split at h
  · obtain ⟨h, -⟩ := h
    obtain rfl := Except.ok.inj h
    intro shape hshape
    obtain ⟨⟨id, sheet⟩, hmem, rfl⟩ := List.mem_map.mp hshape
    rw [List.mem_insertionSort] at hmem
    obtain ⟨hget, hw⟩ := List.mem_filter.mp hmem
    have hw : _ ∧ _ ∧ _ := of_decide_eq_true hw
    exact ⟨id, sheet, Table.mem_withIds.mp hget, of_decide_eq_true hw.1, rfl⟩
  · obtain ⟨h, -⟩ := h
    cases h

omit [DecidableEq ι] in
theorem Inv.relus (h : Inv x) : Relus x := by
  intro pilgrimageType language sheets s' hr shape hshape
  obtain ⟨id, sheet, hget, hv, rfl⟩ := listPublished_runs hr shape hshape
  exact h id sheet hget hv

omit [DecidableEq ι] in
theorem Relus.inv (h : Relus x) : Inv x := by
  intro id sheet hget hv
  have hr : backend.Runs (RiteSheetsService.listPublished none none) x.1 _ x.1 := ⟨0, rfl, rfl⟩
  refine h none none _ _ hr (toRiteSheetShape id sheet) (List.mem_map.mpr ⟨(id, sheet), ?_, rfl⟩)
  rw [List.mem_insertionSort]
  refine List.mem_filter.mpr ⟨Table.mem_withIds.mpr hget, decide_eq_true ?_⟩
  exact ⟨decide_eq_true hv, rfl, rfl⟩

/-- What `update` leaves. -/
theorem update_cases {s : Store} {id : RiteSheetId} {data : RiteSheetUpdate} :
    s.update id data = (none, s) ∨ ∃ sheet sheet', s.sheets[id]? = some sheet ∧
      data.apply sheet = some sheet' ∧ data.validatedById.all s.users = true ∧
      s.update id data = (some sheet', { s with sheets := s.sheets.set id sheet' }) := by
  unfold Store.update
  rcases hget : s.sheets[id]? with _ | sheet
  · exact .inl rfl
  rcases happ : data.apply sheet with _ | sheet'
  · exact .inl (by simp [happ])
  · simp only [Option.bind_some, happ]
    split
    · next hu => exact .inr ⟨sheet, sheet', rfl, happ, hu, rfl⟩
    · exact .inl rfl

theorem apply_isValidated {data : RiteSheetUpdate} {sheet sheet' : RiteSheet}
    (h : data.apply sheet = some sheet') : sheet'.isValidated = data.isValidated := by
  unfold RiteSheetUpdate.apply at h
  simp only [Option.bind_eq_bind, Option.bind_eq_some_iff] at h
  obtain ⟨_, _, _, _, _, _, _, _, _, _, h⟩ := h
  cases h
  rfl

/-- An update of a sheet keeps the invariant, if a validation finds what its reviewer has read. -/
theorem Inv.update {t : ι} {id : RiteSheetId} {data : RiteSheetUpdate} (h : Inv x)
    (hc : Ecrit (.riteSheetUpdate id data)) (ho : SansDerive (t, .riteSheetUpdate id data) x 0) :
    Inv ((x.1.update id data).2, note t (.riteSheetUpdate id data) (x.1.update id data).1 x.1 x.2) := by
  rcases @update_cases x.1 id data with heq | ⟨sheet, sheet', hget, happ, hu, heq⟩
  · rw [heq]
    exact h
  rw [heq]
  intro i row hrow hv
  rw [Table.get_set hget] at hrow
  by_cases hi : id = i
  · subst hi
    rw [if_pos rfl] at hrow
    obtain rfl := Option.some.inj hrow
    have hdata : data.isValidated = true := apply_isValidated happ ▸ hv
    obtain ⟨hsome, hcontenu⟩ := hc hdata
    obtain ⟨reviewerId, hreviewer⟩ := Option.isSome_iff_exists.mp hsome
    have hval : (id, reviewerId) ∈ valide (.riteSheetUpdate id data) := by
      simp [valide, hdata, hreviewer]
    rw [hreviewer] at hu
    obtain ⟨lue, hlue, hsame⟩ := ho (id, reviewerId) hval hu sheet hget
    refine ⟨lue, ?_, hsame.trans (hcontenu id sheet _ happ).symm⟩
    simp only [note, hdata, if_true, Lectures.valide, Function.update_self]
    exact hlue
  · rw [if_neg hi] at hrow
    obtain ⟨lue, hlue, hsame⟩ := h i row hrow hv
    refine ⟨lue, ?_, hsame⟩
    simp only [note]
    split
    · simpa only [Lectures.valide, Function.update_of_ne (Ne.symm hi)] using hlue
    · exact hlue

omit [DecidableEq ι] in
/-- A sheet is created. -/
theorem Inv.create {sheet : RiteSheet} (h : Inv x) (hv : sheet.isValidated = false) :
    Inv ({ x.1 with sheets := x.1.sheets ++ [sheet] }, x.2) := by
  intro i row hrow hrv
  have hget : (x.1.sheets ++ [sheet])[i]? = some row := hrow
  rw [Table.get_append] at hget
  split at hget
  · obtain rfl := Option.some.inj hget
    rw [hv] at hrv
    cases hrv
  · exact h i row hget hrv

omit [DecidableEq ι] in
/-- The history of a read leaves what was validated. -/
theorem Inv.lit {h' : Lectures ι} (h : Inv x) (heq : h'.relue = x.2.relue) : Inv (x.1, h') := by
  intro i row hrow hv
  rw [heq]
  exact h i row hrow hv

end Invariant

/-- The invariant, of which a handler relies on nothing else. -/
def relueRely (ι : Type) : Rely (Store × Lectures ι) where
  inv := Inv
  le _ _ := True
  refl _ := trivial
  trans _ _ _ _ _ := trivial

section Runs

variable {ι : Type} [DecidableEq ι]

/-- **Step.** A statement keeps the invariant, if a validation finds what its reviewer has read. -/
theorem step_inv (c : ι × Stmt) (hc : Ecrit c.2) :
    (relueRely ι).Step (backend.recorded note) SansDerive c := by
  obtain ⟨t, c⟩ := c
  intro x e hi ho
  refine ⟨?_, trivial⟩
  cases c with
  | now => exact hi
  | riteSheetCreate data =>
    show Inv _
    rcases hrow : data.row with _ | sheet
    · simp only [Backend.recorded, backend, exec, hrow]
      exact hi
    · have hv : sheet.isValidated = false := by
        obtain ⟨_, -, rfl⟩ := Option.map_eq_some_iff.mp hrow
        exact hc
      simp only [Backend.recorded, backend, exec, hrow]
      exact hi.create hv
  | riteSheetUpdate id data => exact hi.update hc ho
  | riteSheetFindUnique id =>
    refine hi.lit ?_
    rcases hget : x.1.sheets[id]? with _ | sheet
    · simp only [backend, exec, hget, note]
    · simp only [backend, exec, hget, note, Lectures.lit]
  | riteSheetFindMany w =>
    show Inv _
    by_cases hw : w.valid = true
    · simp only [Backend.recorded, backend, exec, hw, if_true, note]
      split
      · exact hi.lit rfl
      · exact hi
    · simp only [Backend.recorded, backend, exec, hw, note]
      exact hi

/-- **Published as reviewed.** In every state that the sessions of any number of users reach, what
`listPublished` returns is what the user who validated it last had read, if each validation finds the
content that its reviewer has read last. -/
theorem publies_relus (sessions : ι → UserId × List Action) {s : Store} {h : Lectures ι}
    (h₀ : Relus (s, h)) {c : Pool (sig.tagged ι) ι (Store × Lectures ι) Erreur Unit}
    (hr : Pool.Reach (backend.recorded note) (Rely.cond SansDerive) ((poolOf sessions s).tagged h) c) :
    Relus c.st := by
  have hinv : (relueRely ι).inv ((poolOf sessions s).tagged h).st := h₀.inv
  refine ((relueRely ι).reach hinv (fun t => ?_) hr).1.relus
  have huses : (((poolOf sessions s).tagged h).procs t).Uses fun c : ι × Stmt => Ecrit c.2 :=
    (session_ecrit (sessions t).1 (sessions t).2).tag t
  exact (Rely.Keeps.of_uses (fun c hc => step_inv c hc) huses _).mono fun _ _ _ => trivial

end Runs

/-! ## Runs on fixed inputs -/

/-- A sheet that has not been validated, in a database of two users. -/
private def fiche : Store where
  users u := u < 2
  sheets := [{
    key := "tawaf"
    title := "Le Tawaf"
    pilgrimageType := .both
    content := "Tourner sept fois autour de la Kaaba."
    audioRef := none }]

private theorem long : ∀ x, Champ.valeur "Tourner huit fois autour de la Kaaba." = .valeur x →
    10 ≤ x.length := by
  rintro x ⟨⟩
  decide

private def correction : UpdateRiteSheetDto where
  content := .valeur "Tourner huit fois autour de la Kaaba."
  key_length := by rintro x ⟨⟩
  title_length := by rintro x ⟨⟩
  content_length := long
  language_in := by rintro x ⟨⟩

/-- The reviewer (user 0) reads the sheet and validates it, and the editor (user 1) updates it. -/
private def relectures : Fin 2 → UserId × List Action
  | 0 => (0, [.findByIdOrFail 0, .validate 0])
  | 1 => (1, [.update 0 correction])

private def lectures (order : List Nat) :
    Pool (sig.tagged (Fin 2)) (Fin 2) (Store × Lectures (Fin 2)) Erreur Unit :=
  Pool.run (backend.recorded note) (order.map fun t => (Fin.ofNat 2 t, 0))
    ((poolOf relectures fiche).tagged {})

private theorem fiche_relus : Relus (fiche, ({} : Lectures (Fin 2))) := by
  refine Inv.relus fun id sheet hget hv => ?_
  rcases id with _ | id
  · cases hget
    cases hv
  · cases hget

/-- The sheet is updated, read and validated. -/
theorem publies_relus_exemple : Relus (lectures [1, 0, 0, 0]).st := by
  have hallowed : Pool.Allowed (backend.recorded note) (Rely.cond SansDerive)
      ((poolOf relectures fiche).tagged {}) ([1, 0, 0, 0].map fun t => (Fin.ofNat 2 t, 0)) := by
    decide +kernel
  exact publies_relus relectures fiche_relus (hallowed.reach .refl)

/-- The sheet is read, updated and validated. -/
theorem publie_non_relu : ¬ ∀ (sessions : Fin 2 → UserId × List Action) (s : Store)
    (c : Pool (sig.tagged (Fin 2)) (Fin 2) (Store × Lectures (Fin 2)) Erreur Unit),
    Relus (s, ({} : Lectures (Fin 2))) →
    Pool.Reach (backend.recorded note) Pool.anyStep ((poolOf sessions s).tagged {}) c →
    Relus c.st := by
  intro h
  have hinv := (h relectures fiche (lectures [0, 1, 0, 0]) fiche_relus (Pool.Reach.run .refl _)).inv
  have hsheet : (((lectures [0, 1, 0, 0]).st.1.sheets[0]?).map fun x => (x.isValidated, x.content)) =
      some (true, "Tourner huit fois autour de la Kaaba.") := by decide +kernel
  have hrelue : ((lectures [0, 1, 0, 0]).st.2.relue 0).map (·.content) =
      some "Tourner sept fois autour de la Kaaba." := by decide +kernel
  obtain ⟨sheet, hget, hx⟩ := Option.map_eq_some_iff.mp hsheet
  obtain ⟨hv, hcontent⟩ := Prod.mk.inj hx
  obtain ⟨lue, hlue, hsame⟩ := hinv 0 sheet hget hv
  rw [hlue] at hrelue
  have hnew : lue.content = sheet.content := congrArg Contenu.content hsame
  rw [Option.map_some, hnew, hcontent] at hrelue
  revert hrelue
  decide

end OumraHajj.Rites
