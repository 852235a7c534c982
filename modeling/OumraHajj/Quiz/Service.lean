import OumraHajj.Async.Embed
import OumraHajj.Async.History
import OumraHajj.Rites.Service

/-!
# The quiz of the rites

`QuizService` (`src/modules/quiz/quiz.service.ts`). Guides and administrators propose questions, an
administrator publishes or rejects them, and pilgrims answer the published ones. A question that is rejected is
deleted, and the answers to it with it (`onDelete: Cascade`).
-/

namespace OumraHajj.Quiz

open Async Rites

abbrev QuestionId := Nat

structure QuizQuestion where
  riteSheetId : RiteSheetId
  question : String
  options : List String
  correctOption : Nat
  explanation : Option String := none
  isValidated : Bool := false
  validatedById : Option UserId := none
  validatedAt : Option Time := none
  createdAt : Time
  updatedAt : Time
  deriving DecidableEq

structure QuizAttempt where
  pilgrimId : UserId
  questionId : QuestionId
  selectedOption : Nat
  isCorrect : Bool
  createdAt : Time
  deriving DecidableEq

/-- The rite sheets with the quiz; a deleted row is `none`. -/
structure Store where
  rites : Rites.Store
  quizQuestions : Table (Option QuizQuestion) := []
  quizAttempts : Table (Option QuizAttempt) := []

/-- The rows of a table, with their identifiers. -/
def lignes {α : Type} (t : Table (Option α)) : List (Nat × α) :=
  t.withIds.filterMap fun x => x.2.map fun r => (x.1, r)

structure CreateQuizQuestionDto where
  riteSheetId : RiteSheetId
  question : String
  options : List String
  correctOption : Nat
  explanation : Option String := none
  /-- `@IsNotEmpty()`. -/
  question_ne : question ≠ ""
  /-- `@ArrayMinSize(2)`. -/
  options_length : 2 ≤ options.length

inductive Stmt where
  | quizQuestionFindUnique (id : QuestionId)
  | quizQuestionCreate (dto : CreateQuizQuestionDto)
  /-- `data: { isValidated: true, validatedById, validatedAt: new Date() }`. -/
  | quizQuestionUpdate (id : QuestionId) (validatedById : UserId)
  | quizQuestionDelete (id : QuestionId)
  /-- `where: { isValidated, riteSheetId }`, `orderBy: { createdAt: 'asc' }`. -/
  | quizQuestionFindMany (isValidated : Bool) (riteSheetId : Option RiteSheetId)
  | quizAttemptCreate (pilgrimId : UserId) (questionId : QuestionId) (selectedOption : Nat)
    (isCorrect : Bool)
  /-- `where: { pilgrimId }`, with the rite sheet of the question. -/
  | quizAttemptFindMany (pilgrimId : UserId)

/-- The answer of each statement; an error is a rejected call. -/
def Resp : Stmt → Type
  | .quizQuestionFindUnique _ => Option QuizQuestion
  | .quizQuestionCreate _ => Except String (QuestionId × QuizQuestion)
  | .quizQuestionUpdate _ _ => Except String QuizQuestion
  | .quizQuestionDelete _ => Except String Unit
  | .quizQuestionFindMany _ _ => List (QuestionId × QuizQuestion)
  | .quizAttemptCreate _ _ _ _ => Except String (Nat × QuizAttempt)
  | .quizAttemptFindMany _ => List (Nat × QuizAttempt × RiteSheetId)

/-- The statements of the quiz and of the rite sheets. -/
abbrev sig : Sig := Rites.sig.sum ⟨Stmt, Resp⟩

/-- What a statement answers at the time `now`, and the store after it. -/
def exec : (c : Stmt) → (now : Time) → Store → Resp c × Store
  | .quizQuestionFindUnique id, _, s => (s.quizQuestions.row id, s)
  | .quizQuestionCreate dto, now, s =>
    match s.rites.sheets[dto.riteSheetId]? with
    | some _ =>
      let question : QuizQuestion :=
        { riteSheetId := dto.riteSheetId
          question := dto.question
          options := dto.options
          correctOption := dto.correctOption
          explanation := dto.explanation
          createdAt := now
          updatedAt := now }
      (.ok (s.quizQuestions.length, question), { s with quizQuestions := s.quizQuestions ++ [some question] })
    | none => (.error "P2003", s)
  | .quizQuestionUpdate id validatedById, now, s =>
    match s.quizQuestions.row id with
    | some q =>
      if s.rites.users validatedById then
        let q := { q with
          isValidated := true
          validatedById := some validatedById
          validatedAt := some now
          updatedAt := now }
        (.ok q, { s with quizQuestions := s.quizQuestions.set id (some q) })
      else (.error "P2003", s)
    | none => (.error "P2025", s)
  | .quizQuestionDelete id, _, s =>
    match s.quizQuestions.row id with
    | some _ =>
      (.ok (), { s with
        quizQuestions := s.quizQuestions.set id none
        quizAttempts := s.quizAttempts.map fun r => r.filter fun a => a.questionId ≠ id })
    | none => (.error "P2025", s)
  | .quizQuestionFindMany isValidated riteSheetId, _, s =>
    (((lignes s.quizQuestions).filter fun x =>
      x.2.isValidated = isValidated ∧ riteSheetId.all (x.2.riteSheetId = ·)).insertionSort
        fun x y => x.2.createdAt ≤ y.2.createdAt, s)
  | .quizAttemptCreate pilgrimId questionId selectedOption isCorrect, now, s =>
    match s.quizQuestions.row questionId with
    | some _ =>
      if s.rites.users pilgrimId then
        let attempt : QuizAttempt := { pilgrimId, questionId, selectedOption, isCorrect, createdAt := now }
        (.ok (s.quizAttempts.length, attempt), { s with quizAttempts := s.quizAttempts ++ [some attempt] })
      else (.error "P2003", s)
    | none => (.error "P2003", s)
  | .quizAttemptFindMany pilgrimId, _, s =>
    ((lignes s.quizAttempts).filterMap fun x =>
      if x.2.pilgrimId = pilgrimId then
        (s.quizQuestions.row x.2.questionId).map fun q => (x.1, x.2, q.riteSheetId)
      else none, s)

def backend : Backend sig Store Time where
  exec
    | .inl c, now, s =>
      ((Rites.backend.exec c now s.rites).1, { s with rites := (Rites.backend.exec c now s.rites).2 })
    | .inr c, now, s => exec c now s

/-- A request handler. -/
abbrev Req := Prog sig Erreur

/-- Execute one statement. -/
abbrev await (c : Stmt) : Req (Resp c) := @Prog.exec sig _ (.inr c)

/-! ## The service -/

/-- What a pilgrim sees of a question: neither the right answer nor the explanation. -/
structure QuizQuestionShape where
  id : QuestionId
  riteSheetId : RiteSheetId
  question : String
  options : List String

/-- The question for a guide or an administrator. -/
structure QuizQuestionAdminShape extends QuizQuestionShape where
  correctOption : Nat
  explanation : Option String
  isValidated : Bool
  validatedById : Option UserId
  validatedAt : Option Time
  createdAt : Time
  updatedAt : Time

structure QuizAttemptResultShape where
  id : Nat
  pilgrimId : UserId
  questionId : QuestionId
  selectedOption : Nat
  isCorrect : Bool
  createdAt : Time
  correctOption : Nat
  explanation : Option String

structure QuizAttemptWithRiteShape where
  id : Nat
  pilgrimId : UserId
  questionId : QuestionId
  selectedOption : Nat
  isCorrect : Bool
  createdAt : Time
  riteSheetId : RiteSheetId

structure QuizStatsShape where
  totalAttempts : Nat
  correctAttempts : Nat
  scorePercentage : ℚ
  attempts : List QuizAttemptWithRiteShape

/-- `select` of `getQuestionsForRite`. -/
def toQuestionShape (id : QuestionId) (q : QuizQuestion) : QuizQuestionShape where
  id := id
  riteSheetId := q.riteSheetId
  question := q.question
  options := q.options

def toAdminShape (id : QuestionId) (q : QuizQuestion) : QuizQuestionAdminShape where
  id := id
  riteSheetId := q.riteSheetId
  question := q.question
  options := q.options
  correctOption := q.correctOption
  explanation := q.explanation
  isValidated := q.isValidated
  validatedById := q.validatedById
  validatedAt := q.validatedAt
  createdAt := q.createdAt
  updatedAt := q.updatedAt

namespace QuizService

def createQuestion (dto : CreateQuizQuestionDto) : Req QuizQuestionAdminShape := do
  if dto.correctOption ≥ dto.options.length then .fail (.badRequest "correctOption is out of range")
  else
    match ← Prog.left (Rites.await (.riteSheetFindUnique dto.riteSheetId)) with
    | none => .fail (.notFound "Rite sheet not found")
    | some _ =>
      match ← await (.quizQuestionCreate dto) with
      | .ok (id, question) => return toAdminShape id question
      | .error code => .fail (.prisma code)

def validateQuestion (id : QuestionId) (adminId : UserId) : Req QuizQuestionAdminShape := do
  match ← await (.quizQuestionFindUnique id) with
  | none => .fail (.notFound "Question not found")
  | some _ =>
    match ← await (.quizQuestionUpdate id adminId) with
    | .ok validated => return toAdminShape id validated
    | .error code => .fail (.prisma code)

def listPending : Req (List QuizQuestionAdminShape) := do
  let questions ← await (.quizQuestionFindMany false none)
  return List.map (fun x : QuestionId × QuizQuestion => toAdminShape x.1 x.2) questions

/-- Only a question that is not published may be taken back, so that no answers are lost. -/
def rejectQuestion (id : QuestionId) : Req Unit := do
  match ← await (.quizQuestionFindUnique id) with
  | none => .fail (.notFound "Question not found")
  | some question =>
    if question.isValidated then .fail (.conflict "Une question publiée ne peut être refusée")
    else
      match ← await (.quizQuestionDelete id) with
      | .ok _ => return ()
      | .error code => .fail (.prisma code)

def getQuestionsForRite (riteSheetId : RiteSheetId) : Req (List QuizQuestionShape) := do
  let questions ← await (.quizQuestionFindMany true (some riteSheetId))
  return List.map (fun x : QuestionId × QuizQuestion => toQuestionShape x.1 x.2) questions

def submitAttempt (questionId : QuestionId) (pilgrimId : UserId) (selectedOption : Nat) :
    Req QuizAttemptResultShape := do
  match ← await (.quizQuestionFindUnique questionId) with
  | none => .fail (.notFound "Question not found")
  | some question =>
    if question.isValidated = false then .fail (.forbidden "Question is not validated yet")
    else
      let isCorrect := decide (selectedOption = question.correctOption)
      match ← await (.quizAttemptCreate pilgrimId questionId selectedOption isCorrect) with
      | .error code => .fail (.prisma code)
      | .ok (id, attempt) =>
        return { id
                 pilgrimId := attempt.pilgrimId
                 questionId := attempt.questionId
                 selectedOption := attempt.selectedOption
                 isCorrect := attempt.isCorrect
                 createdAt := attempt.createdAt
                 correctOption := question.correctOption
                 explanation := question.explanation }

/-- The statistics of the answers of a pilgrim. -/
def statistiques (attempts : List (Nat × QuizAttempt × RiteSheetId)) : QuizStatsShape :=
  let totalAttempts := attempts.length
  let correctAttempts := (attempts.filter fun x => x.2.1.isCorrect).length
  { totalAttempts
    correctAttempts
    scorePercentage := if totalAttempts > 0 then (correctAttempts / totalAttempts : ℚ) * 100 else 0
    attempts := attempts.map fun x =>
      { id := x.1
        pilgrimId := x.2.1.pilgrimId
        questionId := x.2.1.questionId
        selectedOption := x.2.1.selectedOption
        isCorrect := x.2.1.isCorrect
        createdAt := x.2.1.createdAt
        riteSheetId := x.2.2 } }

def getMyStats (pilgrimId : UserId) : Req QuizStatsShape := do
  let attempts ← await (.quizAttemptFindMany pilgrimId)
  return statistiques attempts

end QuizService

/-! ## Requests -/

inductive Request where
  /-- An action of a user on the rite sheets. -/
  | rites (userId : UserId) (action : Rites.Action)
  | createQuestion (dto : CreateQuizQuestionDto)
  | validateQuestion (id : QuestionId) (adminId : UserId)
  | listPending
  | rejectQuestion (id : QuestionId)
  | getQuestionsForRite (riteSheetId : RiteSheetId)
  | submitAttempt (questionId : QuestionId) (pilgrimId : UserId) (selectedOption : Nat)
  | getMyStats (pilgrimId : UserId)

/-- The handler of a request, with the result of an attempt. -/
def handler : Request → Req (Option QuizAttemptResultShape)
  | .rites userId action => (Prog.left (Rites.action userId action)).bind fun _ => .ret none
  | .createQuestion dto => (QuizService.createQuestion dto).bind fun _ => .ret none
  | .validateQuestion id adminId => (QuizService.validateQuestion id adminId).bind fun _ => .ret none
  | .listPending => QuizService.listPending.bind fun _ => .ret none
  | .rejectQuestion id => (QuizService.rejectQuestion id).bind fun _ => .ret none
  | .getQuestionsForRite riteSheetId =>
    (QuizService.getQuestionsForRite riteSheetId).bind fun _ => .ret none
  | .submitAttempt questionId pilgrimId selectedOption =>
    (QuizService.submitAttempt questionId pilgrimId selectedOption).bind fun result => .ret (some result)
  | .getMyStats pilgrimId => (QuizService.getMyStats pilgrimId).bind fun _ => .ret none

/-- The requests run at once, from the store `s`. -/
def poolOf {ι : Type} (requests : ι → Request) (s : Store) :
    Pool sig ι Store Erreur (Option QuizAttemptResultShape) :=
  ⟨fun t => handler (requests t), s⟩

end OumraHajj.Quiz
