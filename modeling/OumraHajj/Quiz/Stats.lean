import Mathlib.Algebra.Order.Field.Basic
import Mathlib.Tactic.Linarith
import Mathlib.Tactic.Positivity
import OumraHajj.Quiz.Attempts

/-!
# The statistics of a pilgrim

`getMyStats` counts the answers that are stored. Where requests run one after the other, these are the answers
that the pilgrims were given (`Recueil`): none is lost, and none is counted twice.
-/

namespace OumraHajj.Quiz

open Async Rites

/-- The row of a result. -/
def QuizAttemptResultShape.row (r : QuizAttemptResultShape) : Nat × QuizAttempt :=
  (r.id, ⟨r.pilgrimId, r.questionId, r.selectedOption, r.isCorrect, r.createdAt⟩)

def QuizAttemptWithRiteShape.row (r : QuizAttemptWithRiteShape) : Nat × QuizAttempt :=
  (r.id, ⟨r.pilgrimId, r.questionId, r.selectedOption, r.isCorrect, r.createdAt⟩)

/-- The answers that were given, in this order. -/
def noteReponse (h : List QuizAttemptResultShape) (_ : Store) (_ : Request) :
    Except Erreur (Option QuizAttemptResultShape) → List QuizAttemptResultShape
  | .ok (some result) => h ++ [result]
  | _ => h

/-- The answers that are stored are those that were given, and each is marked as it should be. -/
structure Recueil (x : Store × List QuizAttemptResultShape) : Prop where
  sain : Sain x.1
  lignes : x.1.quizAttempts.withIds = x.2.map fun r => (r.row.1, some r.row.2)
  correct : ∀ r ∈ x.2, (r.isCorrect = true ↔ r.selectedOption = r.correctOption)

section Requests

variable {s s' : Store} {h : List QuizAttemptResultShape}

theorem Recueil.same (hs : Recueil (s, h)) (hs' : Sain s') (heq : s'.quizAttempts = s.quizAttempts) :
    Recueil (s', h) :=
  ⟨hs', heq ▸ hs.lignes, hs.correct⟩

/-- The statement leaves the answers. -/
def LaisseReponses (c : sig.Stmt) : Prop :=
  ∀ e s, (backend.exec c e s).2.quizAttempts = s.quizAttempts

theorem same_of_uses {α : Type} {p : Req α} (hp : p.Uses LaisseReponses) {r : Except Erreur α}
    (hr : backend.Runs p s r s') : s'.quizAttempts = s.quizAttempts := by
  refine Backend.Runs.frame (R := fun s s' : Store => s'.quizAttempts = s.quizAttempts) (fun _ => rfl)
    (fun _ _ _ h₁ h₂ => ?_) (fun _ hc => hc) hp hr
  exact h₂.trans h₁

theorem create_laisse (dto : CreateQuizQuestionDto) : LaisseReponses (.inr (.quizQuestionCreate dto)) := by
  intro e s
  show (exec _ e s).2.quizAttempts = _
  simp only [exec]
  split <;> rfl

theorem update_laisse (id : QuestionId) (adminId : UserId) :
    LaisseReponses (.inr (.quizQuestionUpdate id adminId)) := by
  intro e s
  show (exec _ e s).2.quizAttempts = _
  simp only [exec]
  split
  · split <;> rfl
  · rfl

theorem createQuestion_laisse (dto : CreateQuizQuestionDto) :
    (QuizService.createQuestion dto).Uses LaisseReponses := by
  unfold QuizService.createQuestion
  split
  · trivial
  · refine ⟨fun _ _ => rfl, fun sheet => ?_⟩
    rcases sheet with _ | sheet
    · trivial
    · refine ⟨create_laisse dto, fun r => ?_⟩
      rcases r with code | ⟨id, question⟩ <;> trivial

theorem validateQuestion_laisse (id : QuestionId) (adminId : UserId) :
    (QuizService.validateQuestion id adminId).Uses LaisseReponses := by
  refine ⟨fun _ _ => rfl, fun question => ?_⟩
  rcases question with _ | question
  · trivial
  · refine ⟨update_laisse id adminId, fun r => ?_⟩
    rcases r with code | validated <;> trivial

/-- A question that is not published has no answers. -/
theorem rejectQuestion_same {id : QuestionId} {r : Except Erreur Unit} (hs : Sain s)
    (hr : backend.Runs (QuizService.rejectQuestion id) s r s') : s'.quizAttempts = s.quizAttempts := by
  obtain ⟨e, hr⟩ := hr
  rcases hq : s.quizQuestions.row id with _ | question
  · have hexec : (backend.exec (.inr (.quizQuestionFindUnique id)) e s).1 = none := hq
    rw [hexec] at hr
    rw [hr.2]
    rfl
  · have hexec : (backend.exec (.inr (.quizQuestionFindUnique id)) e s).1 = some question := hq
    rw [hexec] at hr
    change backend.Runs (if question.isValidated then _ else _) s r s' at hr
    split at hr
    · rw [hr.2]
    · next hval =>
      obtain ⟨e', hr⟩ := hr
      have hnot : ∀ q ∈ s.quizQuestions.row id, q.isValidated = false := by
        rintro q hmem
        obtain rfl := Option.some.inj (hq.symm.trans hmem)
        exact Bool.eq_false_of_not_eq_true hval
      refine Eq.trans (congrArg _ ?_) ((hs.delete id e').2.2 hnot)
      rcases hdelete : (backend.exec (.inr (.quizQuestionDelete id)) e' s).1 with code | _
      · rw [hdelete] at hr
        exact hr.2
      · rw [hdelete] at hr
        exact hr.2

theorem withIds_append (t : Table (Option QuizAttempt)) (a : Option QuizAttempt) :
    Table.withIds (t ++ [a]) = t.withIds ++ [(t.length, a)] := by
  simp [Table.withIds, List.mapIdx_append]

/-- An answer is stored, or not at all. -/
theorem attempt_exec (pilgrimId : UserId) (questionId : QuestionId) (selectedOption : Nat) (isCorrect : Bool)
    (e : Time) (s : Store) :
    exec (.quizAttemptCreate pilgrimId questionId selectedOption isCorrect) e s =
        (.ok (s.quizAttempts.length, ⟨pilgrimId, questionId, selectedOption, isCorrect, e⟩),
          { s with quizAttempts :=
              s.quizAttempts ++ [some ⟨pilgrimId, questionId, selectedOption, isCorrect, e⟩] }) ∨
      exec (.quizAttemptCreate pilgrimId questionId selectedOption isCorrect) e s = (.error "P2003", s) := by
  simp only [exec]
  split
  · split
    · exact .inl rfl
    · exact .inr rfl
  · exact .inr rfl

/-- The answer that is stored is the one that is given. -/
theorem submitAttempt_recueil {questionId : QuestionId} {pilgrimId : UserId} {selectedOption : Nat}
    {r : Except Erreur QuizAttemptResultShape} (hs : Recueil (s, h)) (hs' : Sain s')
    (hr : backend.Runs (QuizService.submitAttempt questionId pilgrimId selectedOption) s r s') :
    Recueil (s', match r with | .ok result => h ++ [result] | .error _ => h) := by
  obtain ⟨e, hr⟩ := hr
  rcases hq : s.quizQuestions.row questionId with _ | question
  · have hexec : (backend.exec (.inr (.quizQuestionFindUnique questionId)) e s).1 = none := hq
    rw [hexec] at hr
    obtain ⟨rfl, rfl⟩ := hr
    exact hs
  have hexec : (backend.exec (.inr (.quizQuestionFindUnique questionId)) e s).1 = some question := hq
  rw [hexec] at hr
  change backend.Runs (if question.isValidated = false then _ else _) s r s' at hr
  split at hr
  · obtain ⟨rfl, rfl⟩ := hr
    exact hs
  obtain ⟨e', hr⟩ := hr
  rcases attempt_exec pilgrimId questionId selectedOption (decide (selectedOption = question.correctOption))
    e' s with hexec | hexec
  · have hback : backend.exec (.inr (.quizAttemptCreate pilgrimId questionId selectedOption
        (decide (selectedOption = question.correctOption)))) e' s = _ := hexec
    rw [hback] at hr
    obtain ⟨rfl, rfl⟩ := hr
    refine ⟨hs', ?_, ?_⟩
    · show Table.withIds (s.quizAttempts ++ [_]) = _
      rw [withIds_append, hs.lignes, List.map_append]
      rfl
    · intro r hr
      rcases List.mem_append.mp hr with hr | hr
      · exact hs.correct r hr
      · obtain rfl := List.mem_singleton.mp hr
        exact decide_eq_true_iff
  · have hback : backend.exec (.inr (.quizAttemptCreate pilgrimId questionId selectedOption
        (decide (selectedOption = question.correctOption)))) e' s = _ := hexec
    rw [hback] at hr
    obtain ⟨rfl, rfl⟩ := hr
    exact hs

/-- A handler that leaves the answers. -/
theorem recueil_none {α : Type} {p : Req α} {q : Request} {r : Except Erreur (Option QuizAttemptResultShape)}
    (hs : Recueil (s, h)) (hs' : Sain s')
    (hsame : ∀ r s', backend.Runs p s r s' → s'.quizAttempts = s.quizAttempts)
    (hr : backend.Runs (p.bind fun _ => .ret none) s r s') : Recueil (s', noteReponse h s q r) := by
  rcases Backend.runs_bind.mp hr with ⟨a, s₁, hp, rfl, rfl⟩ | ⟨x, hp, rfl⟩
  · exact hs.same hs' (hsame _ _ hp)
  · exact hs.same hs' (hsame _ _ hp)

/-- Every request. -/
theorem handler_recueil {q : Request} {r : Except Erreur (Option QuizAttemptResultShape)}
    (hs : Recueil (s, h)) (hr : backend.Runs (handler q) s r s') : Recueil (s', noteReponse h s q r) := by
  have hs' : Sain s' := ((quiz_keeps (fun _ _ _ _ => False.elim) q s).runs hs.sain hr).1
  cases q with
  | rites userId action =>
    refine recueil_none hs hs' (fun _ _ => same_of_uses ?_) hr
    exact Prog.uses_left (fun _ _ _ => rfl) _
  | createQuestion dto =>
    exact recueil_none hs hs' (fun _ _ => same_of_uses (createQuestion_laisse dto)) hr
  | validateQuestion id adminId =>
    exact recueil_none hs hs' (fun _ _ => same_of_uses (validateQuestion_laisse id adminId)) hr
  | listPending =>
    have hlist : QuizService.listPending.Uses LaisseReponses := ⟨fun _ _ => rfl, fun _ => trivial⟩
    exact recueil_none hs hs' (fun _ _ => same_of_uses hlist) hr
  | rejectQuestion id => exact recueil_none hs hs' (fun _ _ => rejectQuestion_same hs.sain) hr
  | getQuestionsForRite riteSheetId =>
    have hlist : (QuizService.getQuestionsForRite riteSheetId).Uses LaisseReponses :=
      ⟨fun _ _ => rfl, fun _ => trivial⟩
    exact recueil_none hs hs' (fun _ _ => same_of_uses hlist) hr
  | submitAttempt questionId pilgrimId selectedOption =>
    rcases Backend.runs_bind.mp hr with ⟨result, s₁, hp, rfl, rfl⟩ | ⟨x, hp, rfl⟩
    · exact submitAttempt_recueil hs hs' hp
    · exact submitAttempt_recueil hs hs' hp
  | getMyStats pilgrimId =>
    have hstats : (QuizService.getMyStats pilgrimId).Uses LaisseReponses :=
      ⟨fun _ _ => rfl, fun _ => trivial⟩
    exact recueil_none hs hs' (fun _ _ => same_of_uses hstats) hr

/-! ## The statistics -/

theorem mem_lignes {α : Type} {t : Table (Option α)} {i : Nat} {x : α} :
    (i, x) ∈ lignes t ↔ t.row i = some x := by
  simp only [lignes, List.mem_filterMap, Option.map_eq_some_iff, Prod.mk.injEq]
  constructor
  · rintro ⟨⟨j, r⟩, hmem, x', hr, rfl, rfl⟩
    rw [Table.row, Table.mem_withIds.mp hmem, Option.join_some]
    exact hr
  · intro h
    exact ⟨(i, some x), Table.mem_withIds.mpr (Table.get_of_row h), x, rfl, rfl, rfl⟩

/-- The rows that are found, without the sheets of their questions. -/
theorem findMany_rows (hs : Recueil (s, h)) (pilgrimId : UserId) (now : Time) :
    (exec (.quizAttemptFindMany pilgrimId) now s).1.map (fun x => (x.1, x.2.1)) =
      (h.filter fun r => r.pilgrimId = pilgrimId).map (·.row) := by
  have hrows : lignes s.quizAttempts = h.map (·.row) := by
    rw [lignes, hs.lignes, List.filterMap_map]
    exact (List.filterMap_eq_map (f := QuizAttemptResultShape.row)) ▸ rfl
  have hguard : ∀ x ∈ lignes s.quizAttempts,
      ((if x.2.pilgrimId = pilgrimId then
        (s.quizQuestions.row x.2.questionId).map fun q => (x.1, x.2, q.riteSheetId)
      else none).map fun x : Nat × QuizAttempt × RiteSheetId => (x.1, x.2.1)) =
        Option.guard (fun x => x.2.pilgrimId = pilgrimId) x := by
    rintro ⟨k, a⟩ hmem
    obtain ⟨q, hq, -⟩ := hs.sain.attempts k a (mem_lignes.mp hmem)
    by_cases hp : a.pilgrimId = pilgrimId
    · simp [hp, hq, Option.guard]
    · simp [hp, Option.guard]
  calc (exec (.quizAttemptFindMany pilgrimId) now s).1.map (fun x => (x.1, x.2.1))
      = (lignes s.quizAttempts).filterMap (Option.guard fun x => x.2.pilgrimId = pilgrimId) := by
        rw [exec, List.map_filterMap]
        exact List.filterMap_congr hguard
    _ = (h.filter fun r => r.pilgrimId = pilgrimId).map (·.row) := by
        rw [List.filterMap_eq_filter, hrows, List.filter_map]
        rfl

end Requests

theorem score_mem (attempts : List (Nat × QuizAttempt × RiteSheetId)) :
    0 ≤ (QuizService.statistiques attempts).scorePercentage ∧
      (QuizService.statistiques attempts).scorePercentage ≤ 100 := by
  simp only [QuizService.statistiques]
  split
  · next hpos =>
    have hle : ((attempts.filter fun x => x.2.1.isCorrect).length : ℚ) ≤ attempts.length := by
      exact_mod_cast List.length_filter_le _ _
    have hdiv := div_le_one_of_le₀ hle (Nat.cast_nonneg _)
    constructor
    · positivity
    · linarith
  · norm_num

/-- The statistics of the rows of given answers. -/
theorem statistiques_rows {attempts : List (Nat × QuizAttempt × RiteSheetId)}
    {donnees : List QuizAttemptResultShape}
    (hrows : attempts.map (fun x => (x.1, x.2.1)) = donnees.map (·.row))
    (hcorrect : ∀ r ∈ donnees, (r.isCorrect = true ↔ r.selectedOption = r.correctOption)) :
    (QuizService.statistiques attempts).attempts.map (·.row) = donnees.map (·.row) ∧
      (QuizService.statistiques attempts).totalAttempts = donnees.length ∧
      (QuizService.statistiques attempts).correctAttempts =
        (donnees.filter fun r => r.selectedOption = r.correctOption).length := by
  refine ⟨?_, ?_, ?_⟩
  · rw [← hrows]
    exact List.map_map
  · have hlength := congrArg List.length hrows
    rwa [List.length_map, List.length_map] at hlength
  · have hfilter := congrArg (fun l => (l.filter fun x => x.2.isCorrect).length) hrows
    simp only [List.filter_map, List.length_map] at hfilter
    refine hfilter.trans (congrArg _ (List.filter_congr fun r hmem => ?_))
    rw [Bool.eq_iff_iff, decide_eq_true_iff]
    exact hcorrect r hmem

/-- **The statistics of a pilgrim** are those of the answers that he was given, in every run of requests that
run one after the other: none is lost, none is counted twice, and the right ones are those that chose the
right answer of the question. -/
theorem quiz_stats {s : Store} (hs : Sain s) (hvide : s.quizAttempts = [])
    {tr : Trace Request (Store × List QuizAttemptResultShape)}
    (hr : backend.RunWith handler noteReponse (s, []) tr) {pilgrimId : UserId} {stats : QuizStatsShape}
    {s' : Store} (hstats : backend.Runs (QuizService.getMyStats pilgrimId) (Trace.last (s, []) tr).1
      (.ok stats) s') :
    let donnees := (Trace.last (s, []) tr).2.filter fun r => r.pilgrimId = pilgrimId
    stats.attempts.map (·.row) = donnees.map (·.row) ∧ stats.totalAttempts = donnees.length ∧
      stats.correctAttempts = (donnees.filter fun r => r.selectedOption = r.correctOption).length ∧
      0 ≤ stats.scorePercentage ∧ stats.scorePercentage ≤ 100 := by
  have hinit : Recueil (s, []) := ⟨hs, by rw [hvide]; rfl, by simp⟩
  have hlast : Recueil (Trace.last (s, []) tr) := by
    refine Trace.Steps.last (I := Recueil) ?_ hr hinit
    rintro ⟨s₁, h₁⟩ q ⟨s₂, h₂⟩ hi ⟨r, hrun, rfl⟩
    exact handler_recueil hi hrun
  obtain ⟨e, hok, -⟩ := hstats
  obtain rfl := Except.ok.inj hok
  obtain ⟨hrows, htotal, hcorrect⟩ := statistiques_rows (findMany_rows hlast pilgrimId e)
    fun r hmem => hlast.correct r (List.mem_of_mem_filter hmem)
  exact ⟨hrows, htotal, hcorrect, score_mem _⟩

/-- Two questions, none of them published. -/
private def propositions : Store where
  rites :=
    { users := fun u => u ≤ 2
      sheets :=
        [{ key := "tawaf"
           title := "Tawaf"
           pilgrimageType := .oumra
           order := 1
           content := "Sept tours"
           audioRef := none
           language := "fr" }] }
  quizQuestions :=
    [some { riteSheetId := 0
            question := "Combien de tours ?"
            options := ["Cinq", "Sept"]
            correctOption := 1
            createdAt := 0
            updatedAt := 0 },
      some { riteSheetId := 0
             question := "Dans quel sens ?"
             options := ["Horaire", "Antihoraire"]
             correctOption := 1
             createdAt := 0
             updatedAt := 0 }]

private theorem propositions_sain : Sain propositions := by
  refine ⟨?_, ?_, ?_, ?_⟩
  · rintro (_ | _ | id) q hq
    · obtain rfl := Option.some.inj hq
      decide
    · obtain rfl := Option.some.inj hq
      decide
    · cases hq
  · rintro (_ | _ | id) q hq
    · obtain rfl := Option.some.inj hq
      decide
    · obtain rfl := Option.some.inj hq
      decide
    · cases hq
  · rintro (_ | _ | id) q hq
    · obtain rfl := Option.some.inj hq
      decide
    · obtain rfl := Option.some.inj hq
      decide
    · cases hq
  · rintro k a ha
    cases ha

/-- One question is published and answered twice, the other one is rejected. -/
private def partie : Trace Request (Store × List QuizAttemptResultShape) :=
  backend.evalWith handler noteReponse (propositions, [])
    [(.submitAttempt 0 1 1, 1), (.validateQuestion 0 0, 2), (.submitAttempt 0 1 0, 3),
      (.rejectQuestion 1, 4), (.submitAttempt 0 2 0, 5), (.submitAttempt 0 1 1, 6), (.rejectQuestion 0, 7)]

private def finPartie : Except Erreur QuizStatsShape × Store :=
  backend.eval 8 (QuizService.getMyStats 1) (Trace.last (propositions, []) partie).1

/-- Half of the answers are right. -/
theorem quiz_stats_partie :
    ((Trace.last (propositions, []) partie).2.map (·.pilgrimId) = [1, 2, 1] ∧
      (finPartie.1.toOption.map fun stats => (stats.totalAttempts, stats.correctAttempts,
        stats.scorePercentage)) = some (2, 1, 50)) ∧
      ∀ h : finPartie.1.toOption.isSome = true,
        (finPartie.1.toOption.get h).attempts.map (·.row) =
          ((Trace.last (propositions, []) partie).2.filter fun r => r.pilgrimId = 1).map (·.row) :=
  ⟨by decide +kernel, fun h => (quiz_stats propositions_sain rfl (Backend.evalWith_run _ _)
    (Backend.eval_runs_ok (p := QuizService.getMyStats 1) h)).1⟩

end OumraHajj.Quiz
