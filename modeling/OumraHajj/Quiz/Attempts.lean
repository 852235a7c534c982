import OumraHajj.Quiz.Service

/-!
# The answers of the quiz

`Sain` is the invariant: the right answer of a question is one of its options, a question is published by
someone at some time, and every answer that is stored is one to a published question, marked as that question
says. A handler marks the answer from an earlier read of the question, which stays what it was unless it is
deleted (`Suite`), so `Sain` holds whatever requests run at once (`quiz_sound`).

`rejectQuestion` reads that a question is not published and deletes it in a later statement. Where no published
question is deleted, no answer is lost (`quiz_kept`). Requests that run one after the other lose none, so the
statistics of a pilgrim are those of the answers that he was given (`quiz_stats`).
-/

namespace OumraHajj.Quiz

open Async

structure Sain (s : Store) : Prop where
  options : ∀ id q, s.quizQuestions.row id = some q → q.correctOption < q.options.length
  sheets : ∀ id q, s.quizQuestions.row id = some q → q.riteSheetId < s.rites.sheets.length
  publiees : ∀ id q, s.quizQuestions.row id = some q →
    (q.isValidated = true ↔ q.validatedById.isSome ∧ q.validatedAt.isSome)
  attempts : ∀ k a, s.quizAttempts.row k = some a → ∃ q, s.quizQuestions.row a.questionId = some q ∧
    q.isValidated = true ∧ (a.isCorrect = true ↔ a.selectedOption = q.correctOption)

/-- A question stays what it was until it is deleted, and is not taken back once it is published. -/
structure Suite (s s' : Store) : Prop where
  length : s.quizQuestions.length ≤ s'.quizQuestions.length
  questions : ∀ id q, s.quizQuestions.row id = some q → s'.quizQuestions.row id = none ∨
    ∃ q', s'.quizQuestions.row id = some q' ∧ q'.correctOption = q.correctOption ∧
      (q.isValidated = true → q'.isValidated = true)
  supprimees : ∀ id < s.quizQuestions.length, s.quizQuestions.row id = none →
    s'.quizQuestions.row id = none

section States

variable {s s' s₁ : Store}

theorem row_lt {α : Type} {t : Table (Option α)} {i : Nat} {x : α} (h : t.row i = some x) : i < t.length :=
  Table.lt_of_get (Table.get_of_row h)

theorem Suite.refl (s : Store) : Suite s s :=
  ⟨Nat.le_refl _, fun _ q hq => .inr ⟨q, hq, rfl, id⟩, fun _ _ h => h⟩

theorem Suite.trans (h : Suite s s₁) (h' : Suite s₁ s') : Suite s s' := by
  refine ⟨h.length.trans h'.length, fun id q hq => ?_, fun id hid hnone =>
    h'.supprimees id (hid.trans_le h.length) (h.supprimees id hid hnone)⟩
  rcases h.questions id q hq with hnone | ⟨q₁, hq₁, hcorrect₁, hval₁⟩
  · exact .inl (h'.supprimees id ((row_lt hq).trans_le h.length) hnone)
  · rcases h'.questions id q₁ hq₁ with hnone | ⟨q', hq', hcorrect, hval⟩
    · exact .inl hnone
    · exact .inr ⟨q', hq', hcorrect.trans hcorrect₁, fun hv => hval (hval₁ hv)⟩

/-- The questions are the same. -/
theorem Suite.of_eq (h : s'.quizQuestions = s.quizQuestions) : Suite s s' := by
  refine ⟨by rw [h], fun id q hq => .inr ⟨q, by rw [h, hq], rfl, fun hv => hv⟩, fun id _ hnone => ?_⟩
  rw [h, hnone]

/-- What a handler knows of a published question: its right answer, until it is deleted. -/
theorem Suite.published (h : Suite s s') {id : QuestionId} {q : QuizQuestion}
    (hq : s.quizQuestions.row id = some q) (hv : q.isValidated = true) {q' : QuizQuestion}
    (hq' : s'.quizQuestions.row id = some q') :
    q'.isValidated = true ∧ q'.correctOption = q.correctOption := by
  rcases h.questions id q hq with hnone | ⟨q₁, hq₁, hcorrect, hval⟩
  · rw [hnone] at hq'
    cases hq'
  · obtain rfl := Option.some.inj (hq₁.symm.trans hq')
    exact ⟨hval hv, hcorrect⟩

end States

/-! ## The statements -/

/-- What a handler knows before the statement. -/
def Correct (s : Store) : Stmt → Prop
  | .quizQuestionCreate dto => dto.correctOption < dto.options.length
  | .quizAttemptCreate _ questionId selectedOption isCorrect =>
    ∀ q, s.quizQuestions.row questionId = some q →
      q.isValidated = true ∧ (isCorrect = true ↔ selectedOption = q.correctOption)
  | _ => True

/-- The statement deletes no published question. -/
def SansPerte : sig.Stmt → Store → Prop
  | .inr (.quizQuestionDelete id), s => ∀ q ∈ s.quizQuestions.row id, q.isValidated = false
  | _, _ => True

instance (c : sig.Stmt) (s : Store) : Decidable (SansPerte c s) := by
  rcases c with c | c
  · exact isTrue trivial
  · cases c <;> first
      | exact isTrue trivial
      | exact inferInstanceAs (Decidable (∀ q ∈ _, _))

section Statements

variable {s : Store}

theorem Sain.rites (hs : Sain s) (c : Rites.Stmt) (now : Time) :
    Sain (backend.exec (.inl c) now s).2 := by
  have hlen : s.rites.sheets.length ≤ (Rites.exec c now s.rites).2.sheets.length := by
    cases c with
    | now | riteSheetFindUnique id => exact Nat.le_refl _
    | riteSheetCreate data =>
      simp only [Rites.exec]
      split
      · rw [List.length_append]
        exact Nat.le_add_right _ _
      · exact Nat.le_refl _
    | riteSheetUpdate id data =>
      simp only [Rites.exec, Rites.Store.update]
      split
      · split
        · exact (List.length_set ..).ge
        · exact Nat.le_refl _
      · exact Nat.le_refl _
    | riteSheetFindMany w =>
      simp only [Rites.exec]
      split <;> exact Nat.le_refl _
  exact ⟨hs.options, fun id q hq => (hs.sheets id q hq).trans_le hlen, hs.publiees, hs.attempts⟩

/-- A question is created. -/
theorem Sain.create (hs : Sain s) {dto : CreateQuizQuestionDto}
    (hdto : dto.correctOption < dto.options.length) (now : Time) :
    Sain (exec (.quizQuestionCreate dto) now s).2 ∧ Suite s (exec (.quizQuestionCreate dto) now s).2 ∧
      (exec (.quizQuestionCreate dto) now s).2.quizAttempts = s.quizAttempts := by
  simp only [exec]
  split
  · next sheet hsheet =>
    have hold : ∀ (q : QuizQuestion) id, id < s.quizQuestions.length →
        Table.row (s.quizQuestions ++ [some q]) id = s.quizQuestions.row id := fun q id hid => by
      rw [Table.row_append, if_neg hid.ne]
    have hnew : ∀ {q q' : QuizQuestion} {id}, Table.row (s.quizQuestions ++ [some q]) id = some q' →
        q' = q ∨ s.quizQuestions.row id = some q' := by
      intro q q' id hq
      rw [Table.row_append] at hq
      split at hq
      · exact .inl (Option.some.inj hq).symm
      · exact .inr hq
    refine ⟨⟨fun id q hq => ?_, fun id q hq => ?_, fun id q hq => ?_, fun k a ha => ?_⟩, ⟨?_, ?_, ?_⟩, rfl⟩
    · rcases hnew hq with rfl | hq
      · exact hdto
      · exact hs.options id q hq
    · rcases hnew hq with rfl | hq
      · exact Table.lt_of_get hsheet
      · exact hs.sheets id q hq
    · rcases hnew hq with rfl | hq
      · simp
      · exact hs.publiees id q hq
    · obtain ⟨q, hq, h⟩ := hs.attempts k a ha
      exact ⟨q, (hold _ _ (row_lt hq)).trans hq, h⟩
    · rw [List.length_append]
      exact Nat.le_add_right _ _
    · exact fun id q hq => .inr ⟨q, (hold _ _ (row_lt hq)).trans hq, rfl, fun h => h⟩
    · exact fun id hid hnone => (hold _ _ hid).trans hnone
  · exact ⟨hs, .refl s, rfl⟩

/-- A question is published. -/
theorem Sain.update (hs : Sain s) (id : QuestionId) (validatedById : UserId) (now : Time) :
    Sain (exec (.quizQuestionUpdate id validatedById) now s).2 ∧
      Suite s (exec (.quizQuestionUpdate id validatedById) now s).2 ∧
      (exec (.quizQuestionUpdate id validatedById) now s).2.quizAttempts = s.quizAttempts := by
  simp only [exec]
  split
  · next q hq =>
    split
    · set q₁ : QuizQuestion := { q with
        isValidated := true
        validatedById := some validatedById
        validatedAt := some now
        updatedAt := now } with hq₁
      have hrow : ∀ j, Table.row (s.quizQuestions.set id (some q₁)) j =
          if id = j then some q₁ else s.quizQuestions.row j := Table.row_set hq (some q₁)
      have hcases : ∀ {q' : QuizQuestion} {j}, Table.row (s.quizQuestions.set id (some q₁)) j = some q' →
          (id = j ∧ q' = q₁) ∨ s.quizQuestions.row j = some q' := by
        intro q' j hj
        rw [hrow] at hj
        split at hj
        · next heq => exact .inl ⟨heq, (Option.some.inj hj).symm⟩
        · exact .inr hj
      have hstay : ∀ j q', s.quizQuestions.row j = some q' →
          ∃ q'', Table.row (s.quizQuestions.set id (some q₁)) j = some q'' ∧
            q''.correctOption = q'.correctOption ∧ (q'.isValidated = true → q''.isValidated = true) := by
        intro j q' hj
        rw [hrow]
        by_cases heq : id = j
        · subst heq
          obtain rfl := Option.some.inj (hq.symm.trans hj)
          exact ⟨q₁, if_pos rfl, rfl, fun _ => rfl⟩
        · exact ⟨q', (if_neg heq).trans hj, rfl, fun h => h⟩
      refine ⟨⟨fun j q' hj => ?_, fun j q' hj => ?_, fun j q' hj => ?_, fun k a ha => ?_⟩,
        ⟨(List.length_set ..).ge, fun j q' hj => .inr (hstay j q' hj), fun j _ hnone => ?_⟩, rfl⟩
      · rcases hcases hj with ⟨rfl, rfl⟩ | hj
        · exact hs.options id q hq
        · exact hs.options j q' hj
      · rcases hcases hj with ⟨rfl, rfl⟩ | hj
        · exact hs.sheets id q hq
        · exact hs.sheets j q' hj
      · rcases hcases hj with ⟨rfl, rfl⟩ | hj
        · exact ⟨fun _ => ⟨rfl, rfl⟩, fun _ => rfl⟩
        · exact hs.publiees j q' hj
      · obtain ⟨q', hq', hval, hcorrect⟩ := hs.attempts k a ha
        obtain ⟨q'', hq'', hsame, hval'⟩ := hstay a.questionId q' hq'
        exact ⟨q'', hq'', hval' hval, hsame ▸ hcorrect⟩
      · rw [hrow, if_neg, hnone]
        rintro rfl
        rw [hq] at hnone
        cases hnone
    · exact ⟨hs, .refl s, rfl⟩
  · exact ⟨hs, .refl s, rfl⟩

/-- A question is deleted, with its answers; there is none if it is not published. -/
theorem Sain.delete (hs : Sain s) (id : QuestionId) (now : Time) :
    Sain (exec (.quizQuestionDelete id) now s).2 ∧ Suite s (exec (.quizQuestionDelete id) now s).2 ∧
      ((∀ q ∈ s.quizQuestions.row id, q.isValidated = false) →
        (exec (.quizQuestionDelete id) now s).2.quizAttempts = s.quizAttempts) := by
  simp only [exec]
  split
  · next q hq =>
    have hrow : ∀ j, Table.row (s.quizQuestions.set id none) j =
        if id = j then none else s.quizQuestions.row j := Table.row_set hq none
    have hcases : ∀ {q' : QuizQuestion} {j}, Table.row (s.quizQuestions.set id none) j = some q' →
        id ≠ j ∧ s.quizQuestions.row j = some q' := by
      intro q' j hj
      rw [hrow] at hj
      split at hj
      · cases hj
      · next hne => exact ⟨hne, hj⟩
    refine ⟨⟨fun j q' hj => hs.options j q' (hcases hj).2, fun j q' hj => hs.sheets j q' (hcases hj).2,
      fun j q' hj => hs.publiees j q' (hcases hj).2, fun k a ha => ?_⟩,
      ⟨(List.length_set ..).ge, fun j q' hj => ?_, fun j _ hnone => ?_⟩, fun hnot => ?_⟩
    · rw [Table.row_map_filter] at ha
      obtain ⟨ha, hne⟩ := Option.filter_eq_some_iff.mp ha
      obtain ⟨q', hq', h⟩ := hs.attempts k a ha
      refine ⟨q', ?_, h⟩
      rw [hrow, if_neg (Ne.symm (by simpa using hne)), hq']
    · rw [hrow]
      split
      · exact .inl rfl
      · exact .inr ⟨q', hj, rfl, fun h => h⟩
    · rw [hrow]
      split
      · rfl
      · exact hnone
    · -- an answer is one to a published question
      refine (List.map_congr_left fun r hr => ?_).trans (List.map_id _)
      rcases r with _ | a
      · rfl
      · obtain ⟨k, hk⟩ := List.mem_iff_getElem?.mp hr
        have ha : s.quizAttempts.row k = some a := by
          rw [Table.row, hk]
          rfl
        obtain ⟨q', hq', hval, -⟩ := hs.attempts k a ha
        refine Option.filter_eq_some_iff.mpr ⟨rfl, ?_⟩
        rw [decide_eq_true_iff]
        rintro rfl
        rw [hnot q' hq'] at hval
        cases hval
  · exact ⟨hs, .refl s, fun _ => rfl⟩

/-- An answer to a published question is stored. -/
theorem Sain.attempt (hs : Sain s) {pilgrimId : UserId} {questionId : QuestionId} {selectedOption : Nat}
    {isCorrect : Bool} (hc : Correct s (.quizAttemptCreate pilgrimId questionId selectedOption isCorrect))
    (now : Time) :
    Sain (exec (.quizAttemptCreate pilgrimId questionId selectedOption isCorrect) now s).2 ∧
      Suite s (exec (.quizAttemptCreate pilgrimId questionId selectedOption isCorrect) now s).2 ∧
      s.quizAttempts <+:
        (exec (.quizAttemptCreate pilgrimId questionId selectedOption isCorrect) now s).2.quizAttempts := by
  simp only [exec]
  split
  · next q hq =>
    split
    · refine ⟨⟨hs.options, hs.sheets, hs.publiees, fun k a ha => ?_⟩, .of_eq rfl, List.prefix_append _ _⟩
      rw [Table.row_append] at ha
      split at ha
      · obtain rfl := Option.some.inj ha
        exact ⟨q, hq, hc q hq⟩
      · exact hs.attempts k a ha
    · exact ⟨hs, .refl s, List.prefix_rfl⟩
  · exact ⟨hs, .refl s, List.prefix_rfl⟩

/-- What a statement keeps. -/
theorem statement_step (hs : Sain s) (c : Stmt) (hc : Correct s c) (now : Time) :
    Sain (exec c now s).2 ∧ Suite s (exec c now s).2 ∧
      (SansPerte (.inr c) s → s.quizAttempts <+: (exec c now s).2.quizAttempts) := by
  cases c with
  | quizQuestionFindUnique id | quizQuestionFindMany v r | quizAttemptFindMany p =>
    exact ⟨hs, .refl s, fun _ => List.prefix_rfl⟩
  | quizQuestionCreate dto =>
    obtain ⟨h, hle, hattempts⟩ := hs.create hc now
    exact ⟨h, hle, fun _ => hattempts ▸ List.prefix_rfl⟩
  | quizQuestionUpdate id validatedById =>
    obtain ⟨h, hle, hattempts⟩ := hs.update id validatedById now
    exact ⟨h, hle, fun _ => hattempts ▸ List.prefix_rfl⟩
  | quizQuestionDelete id =>
    obtain ⟨h, hle, hattempts⟩ := hs.delete id now
    exact ⟨h, hle, fun hnot => hattempts hnot ▸ List.prefix_rfl⟩
  | quizAttemptCreate p q o b =>
    obtain ⟨h, hle, hattempts⟩ := hs.attempt hc now
    exact ⟨h, hle, fun _ => hattempts⟩

end Statements

/-! ## The handlers -/

/-- The invariant, and where `p` no answer is lost. -/
def quizRely (p : Prop) : Rely Store where
  inv := Sain
  le s s' := Suite s s' ∧ (p → s.quizAttempts <+: s'.quizAttempts)
  refl s := ⟨.refl s, fun _ => List.prefix_rfl⟩
  trans _ _ _ h h' := ⟨h.1.trans h'.1, fun hp => (h.2 hp).trans (h'.2 hp)⟩

/-- A statement that needs no earlier read. -/
def Neutre : sig.Stmt → Prop
  | .inl _ => True
  | .inr c => ∀ s, Correct s c

section Handlers

variable {p : Prop} {ok : sig.Stmt → Store → Time → Prop} (hok : ∀ c s e, ok c s e → p → SansPerte c s)

include hok

theorem neutre_step {c : sig.Stmt} (hc : Neutre c) : (quizRely p).Step backend ok c := by
  intro s e hs ho
  cases c with
  | inl c => exact ⟨hs.rites c e, .of_eq rfl, fun _ => List.prefix_rfl⟩
  | inr c =>
    obtain ⟨hs', hle, hattempts⟩ := statement_step hs c (hc s) e
    exact ⟨hs', hle, fun hp => hattempts (hok _ _ _ ho hp)⟩

theorem neutre_keeps {α : Type} {h : Req α} (hh : h.Uses Neutre) (s : Store) :
    (quizRely p).Keeps backend ok (h.bind fun _ => .ret (none : Option QuizAttemptResultShape)) s
      fun _ _ => True := by
  refine (Rely.Keeps.of_uses (fun c => neutre_step hok) (hh.bind fun _ => ?_) s).mono fun _ _ _ => trivial
  exact Prog.uses_ret _ _

/-- The question is still published when the answer to it is stored. -/
theorem submitAttempt_keeps (questionId : QuestionId) (pilgrimId : UserId) (selectedOption : Nat)
    (s : Store) :
    (quizRely p).Keeps backend ok (QuizService.submitAttempt questionId pilgrimId selectedOption) s
      fun _ _ => True := by
  refine .read (S := sig) (c := .inr (.quizQuestionFindUnique questionId)) (fun _ _ => rfl)
    fun s₁ e₁ _ _ => ?_
  rcases hq : s₁.quizQuestions.row questionId with _ | question
  · have hexec : (backend.exec (.inr (.quizQuestionFindUnique questionId)) e₁ s₁).1 = none := hq
    rw [hexec]
    trivial
  have hexec : (backend.exec (.inr (.quizQuestionFindUnique questionId)) e₁ s₁).1 = some question := hq
  rw [hexec]
  show Rely.Keeps _ _ _ (if question.isValidated = false then _ else _) _ _
  split
  · trivial
  next hval =>
  rintro s₂ e hi ⟨hle, -⟩ ho
  have hc : Correct s₂ (.quizAttemptCreate pilgrimId questionId selectedOption
      (decide (selectedOption = question.correctOption))) := by
    intro q' hq'
    obtain ⟨hval', hcorrect⟩ := hle.published hq (Bool.eq_true_of_not_eq_false hval) hq'
    exact ⟨hval', by rw [decide_eq_true_iff, hcorrect]⟩
  obtain ⟨hi', hle', hattempts⟩ := statement_step hi _ hc e
  refine ⟨hi', ⟨hle', fun hp => hattempts (hok _ _ _ ho hp)⟩, ?_⟩
  rcases (backend.exec (.inr (.quizAttemptCreate pilgrimId questionId selectedOption
    (decide (selectedOption = question.correctOption)))) e s₂).1 with code | ⟨id, attempt⟩ <;> trivial

end Handlers

theorem createQuestion_neutre (dto : CreateQuizQuestionDto) :
    (QuizService.createQuestion dto).Uses Neutre := by
  unfold QuizService.createQuestion
  split
  · trivial
  · next hlt =>
    refine ⟨trivial, fun sheet => ?_⟩
    rcases sheet with _ | sheet
    · trivial
    · refine ⟨fun _ => Nat.lt_of_not_ge hlt, fun r => ?_⟩
      rcases r with code | ⟨id, question⟩ <;> trivial

theorem validateQuestion_neutre (id : QuestionId) (adminId : UserId) :
    (QuizService.validateQuestion id adminId).Uses Neutre := by
  refine ⟨fun _ => trivial, fun question => ?_⟩
  rcases question with _ | question
  · trivial
  · refine ⟨fun _ => trivial, fun r => ?_⟩
    rcases r with code | validated <;> trivial

theorem rejectQuestion_neutre (id : QuestionId) : (QuizService.rejectQuestion id).Uses Neutre := by
  refine ⟨fun _ => trivial, fun question => ?_⟩
  rcases question with _ | question
  · trivial
  · show Prog.Uses _ (if question.isValidated then _ else _)
    split
    · trivial
    · refine ⟨fun _ => trivial, fun r => ?_⟩
      rcases r with code | _ <;> trivial

/-- Every handler. -/
theorem quiz_keeps {p : Prop} {ok : sig.Stmt → Store → Time → Prop}
    (hok : ∀ c s e, ok c s e → p → SansPerte c s) (q : Request) (s : Store) :
    (quizRely p).Keeps backend ok (handler q) s fun _ _ => True := by
  cases q with
  | rites userId action => exact neutre_keeps hok (Prog.uses_left (fun _ => trivial) _) s
  | createQuestion dto => exact neutre_keeps hok (createQuestion_neutre dto) s
  | validateQuestion id adminId => exact neutre_keeps hok (validateQuestion_neutre id adminId) s
  | listPending =>
    exact neutre_keeps hok (h := QuizService.listPending) ⟨fun _ => trivial, fun _ => trivial⟩ s
  | rejectQuestion id => exact neutre_keeps hok (rejectQuestion_neutre id) s
  | getQuestionsForRite riteSheetId =>
    exact neutre_keeps hok (h := QuizService.getQuestionsForRite riteSheetId)
      ⟨fun _ => trivial, fun _ => trivial⟩ s
  | submitAttempt questionId pilgrimId selectedOption =>
    refine .bind ((submitAttempt_keeps hok questionId pilgrimId selectedOption s).mono ?_)
    rintro (x | result) s' - <;> trivial
  | getMyStats pilgrimId =>
    exact neutre_keeps hok (h := QuizService.getMyStats pilgrimId) ⟨fun _ => trivial, fun _ => trivial⟩ s

/-- **The quiz is sound.** Whatever requests run at once, the right answer of a question is one of its
options, and every answer that is stored is one to a published question, marked as that question says; a
published question keeps its right answer and is not taken back. -/
theorem quiz_sound {ι : Type} [DecidableEq ι] (requests : ι → Request) {s : Store} (hs : Sain s)
    {c : Pool sig ι Store Erreur (Option QuizAttemptResultShape)}
    (hr : Pool.Reach backend Pool.anyStep (poolOf requests s) c) : Sain c.st ∧ Suite s c.st := by
  have hr' : Pool.Reach backend (Rely.cond fun _ _ _ => True) (poolOf requests s) c :=
    hr.mono fun _ _ _ _ _ _ _ => trivial
  have h₀ : (quizRely False).inv (poolOf requests s).st := hs
  obtain ⟨hs', hle, -⟩ :=
    Rely.reach h₀ (fun t => quiz_keeps (fun _ _ _ _ => False.elim) (requests t) s) hr'
  exact ⟨hs', hle⟩

/-- A sheet with two questions, the second one published and answered. -/
private def quiz : Store where
  rites :=
    { users := fun u => u ≤ 2
      sheets :=
        [{ key := "tawaf"
           title := "Tawaf"
           pilgrimageType := .oumra
           order := 1
           content := "Sept tours"
           audioRef := none
           language := "fr" }] }
  quizQuestions :=
    [some { riteSheetId := 0
            question := "Combien de tours ?"
            options := ["Cinq", "Sept"]
            correctOption := 1
            createdAt := 0
            updatedAt := 0 },
      some { riteSheetId := 0
             question := "Dans quel sens ?"
             options := ["Horaire", "Antihoraire"]
             correctOption := 1
             isValidated := true
             validatedById := some 0
             validatedAt := some 1
             createdAt := 0
             updatedAt := 1 }]
  quizAttempts := [some ⟨1, 1, 0, false, 2⟩]

private theorem quiz_sain : Sain quiz := by
  refine ⟨?_, ?_, ?_, ?_⟩
  · rintro (_ | _ | id) q hq
    · obtain rfl := Option.some.inj hq
      decide
    · obtain rfl := Option.some.inj hq
      decide
    · cases hq
  · rintro (_ | _ | id) q hq
    · obtain rfl := Option.some.inj hq
      decide
    · obtain rfl := Option.some.inj hq
      decide
    · cases hq
  · rintro (_ | _ | id) q hq
    · obtain rfl := Option.some.inj hq
      decide
    · obtain rfl := Option.some.inj hq
      decide
    · cases hq
  · rintro (_ | k) a ha
    · obtain rfl := Option.some.inj ha
      exact ⟨_, rfl, by decide, by decide⟩
    · cases ha

/-- The first question is rejected, published and answered. -/
private def troisAvis : Fin 3 → Request
  | 0 => .rejectQuestion 0
  | 1 => .validateQuestion 0 0
  | 2 => .submitAttempt 0 2 1

/-- The requests run in the order of the list. -/
private def avis (tour : List (Fin 3)) : Pool sig (Fin 3) Store Erreur (Option QuizAttemptResultShape) :=
  Pool.run backend (tour.map fun t => (t, 3)) (poolOf troisAvis quiz)

/-- The question is deleted that has been published and answered. -/
theorem quiz_sound_retrait :
    ((avis [0, 1, 1, 2, 2]).st.quizAttempts = [some ⟨1, 1, 0, false, 2⟩, some ⟨2, 0, 1, true, 3⟩] ∧
      (avis [0, 1, 1, 2, 2, 0]).st.quizAttempts = [some ⟨1, 1, 0, false, 2⟩, none]) ∧
      Sain (avis [0, 1, 1, 2, 2, 0]).st ∧ Suite quiz (avis [0, 1, 1, 2, 2, 0]).st :=
  ⟨by decide +kernel, quiz_sound troisAvis quiz_sain (Pool.Reach.run .refl _)⟩

end OumraHajj.Quiz
