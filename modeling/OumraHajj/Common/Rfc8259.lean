import Mathlib.Algebra.Order.Ring.Rat
import Mathlib.Data.List.Forall2
import Mathlib.Data.List.TakeDrop
import Mathlib.Data.List.TakeWhile

/-!
# RFC 8259

A reader of JSON texts, and what it reads in the objects of a writer. The characters make tokens, and the
tokens make a value; both are read from left to right, the values that are not over yet on a stack.

* `parse text`: the value of a text; `none` if it is malformed. A number is the fraction that it denotes. A
  half of a surrogate pair, which is no character, is `U+FFFD`.
* `Value.get v key`: the member of an object, the last one if there are several.
* `Lexes w ts`: the characters `w` are the tokens `ts`.
* `lexes_str`, `lexes_int`, `parse_object`: what a writer writes is read back.
-/

namespace Rfc8259

inductive Value where
  | null
  | bool (b : Bool)
  | num (x : ℚ)
  | str (s : String)
  | arr (vs : List Value)
  | obj (ms : List (String × Value))

/-- The member of an object. -/
def Value.get : Value → String → Option Value
  | .obj ms, key => (ms.reverse.find? (·.1 = key)).map (·.2)
  | _, _ => none

inductive Token where
  | lbracket
  | rbracket
  | lbrace
  | rbrace
  | comma
  | colon
  /-- A literal, a number or a string. -/
  | scalar (v : Value)

/-! ## Numbers and strings -/

/-- The digits at the start. -/
def digits (w : List Char) : List Char × List Char := w.span Char.isDigit

/-- The sign at the start; `true`: a minus. -/
def sign (w : List Char) : Bool × List Char :=
  match w with
  | '-' :: w => (true, w)
  | w => (false, w)

/-- The fraction at the start. -/
def fraction (w : List Char) : Option (ℚ × List Char) :=
  match w with
  | '.' :: w =>
    let (ds, w) := digits w
    if ds = [] then none else some ((Nat.ofDigitChars 10 ds 0 : ℚ) / 10 ^ ds.length, w)
  | w => some (0, w)

/-- The power of ten that is the rest. -/
def exponent (w : List Char) : Option ℚ :=
  match w with
  | [] => some 1
  | c :: w =>
    let (minus, w) := match w with
      | '+' :: w => (false, w)
      | w => sign w
    let (ds, w) := digits w
    if (c = 'e' ∨ c = 'E') ∧ ds ≠ [] ∧ w = [] then
      let p : ℚ := 10 ^ Nat.ofDigitChars 10 ds 0
      some (if minus then 1 / p else p)
    else none

/-- The number that the characters denote. -/
def number (w : List Char) : Option ℚ :=
  let (minus, w) := sign w
  let (ds, w) := digits w
  if ds = [] ∨ (ds.head? = some '0' ∧ ds.length ≠ 1) then none
  else (fraction w).bind fun (f, w) => (exponent w).map fun e =>
    let x := (Nat.ofDigitChars 10 ds 0 + f) * e
    if minus then -x else x

/-- A literal or a number. -/
def literal (w : List Char) : Option Value :=
  if w = "null".toList then some .null
  else if w = "true".toList then some (.bool true)
  else if w = "false".toList then some (.bool false)
  else (number w).map .num

/-- What a string is made of: characters, and codes of 16 bits. -/
inductive Piece where
  | char (c : Char)
  | code (n : Nat)

/-- The character of a code that is not in a pair. -/
def alone (n : Nat) : Char := if 0xD800 ≤ n ∧ n < 0xE000 then '\uFFFD' else Char.ofNat n

/-- The characters of a string; two codes may be one character. -/
def join : List Piece → List Char
  | [] => []
  | .char c :: ps => c :: join ps
  | .code n :: .code m :: ps =>
    if 0xD800 ≤ n ∧ n < 0xDC00 ∧ 0xDC00 ≤ m ∧ m < 0xE000 then
      Char.ofNat (0x10000 + (n - 0xD800) * 0x400 + (m - 0xDC00)) :: join ps
    else alone n :: join (.code m :: ps)
  | .code n :: ps => alone n :: join ps

/-- The characters that stand after a backslash for another one. -/
def escapes : List (Char × Char) :=
  [('"', '"'), ('\\', '\\'), ('/', '/'), ('b', '\x08'), ('f', '\x0c'), ('n', '\n'), ('r', '\r'),
    ('t', '\t')]

/-- The value of a hexadecimal digit. -/
def hexValue (c : Char) : Option Nat :=
  if c.isDigit then some (c.toNat - 48)
  else if 'a' ≤ c ∧ c ≤ 'f' then some (c.toNat - 87)
  else if 'A' ≤ c ∧ c ≤ 'F' then some (c.toNat - 55)
  else none

/-! ## Tokens -/

/-- Where the lexer is: in a literal or a number or between tokens, in a string, after a backslash, or after
`\u` and some digits. -/
inductive Mode where
  | run (w : List Char)
  | string (ps : List Piece)
  | escape (ps : List Piece)
  | hex (ps : List Piece) (k n : Nat)

structure Lexer where
  mode : Mode := .run []
  tokens : List Token := []

def punctuation : Char → Option Token
  | '[' => some .lbracket
  | ']' => some .rbracket
  | '{' => some .lbrace
  | '}' => some .rbrace
  | ',' => some .comma
  | ':' => some .colon
  | _ => none

def isSpace (c : Char) : Bool := [' ', '\t', '\n', '\r'].contains c

namespace Lexer

/-- The tokens, with the literal or the number that ends here. -/
def flush (x : Lexer) : Option (List Token) :=
  match x.mode with
  | .run [] => some x.tokens
  | .run w => (literal w).map fun v => x.tokens ++ [.scalar v]
  | _ => none

/-- One character is read. -/
def read (x : Lexer) (c : Char) : Option Lexer :=
  match x.mode with
  | .run w =>
    if c = '"' then x.flush.map fun ts => ⟨.string [], ts⟩
    else if isSpace c then x.flush.map fun ts => ⟨.run [], ts⟩
    else match punctuation c with
      | some t => x.flush.map fun ts => ⟨.run [], ts ++ [t]⟩
      | none => some { x with mode := .run (w ++ [c]) }
  | .string ps =>
    if c = '"' then some ⟨.run [], x.tokens ++ [.scalar (.str (String.ofList (join ps)))]⟩
    else if c = '\\' then some { x with mode := .escape ps }
    else if c.toNat < 32 then none
    else some { x with mode := .string (ps ++ [.char c]) }
  | .escape ps =>
    if c = 'u' then some { x with mode := .hex ps 0 0 }
    else (escapes.lookup c).map fun d => { x with mode := .string (ps ++ [.char d]) }
  | .hex ps k n =>
    (hexValue c).map fun d =>
      if k = 3 then { x with mode := .string (ps ++ [.code (16 * n + d)]) }
      else { x with mode := .hex ps (k + 1) (16 * n + d) }

def readAll (x : Lexer) (w : List Char) : Option Lexer := w.foldlM read x

end Lexer

/-- The tokens of a text. -/
def tokens (w : List Char) : Option (List Token) := (Lexer.readAll {} w).bind Lexer.flush

/-! ## Values -/

/-- A value that is not over: an array with its first elements, or an object with its first members and the
key of the next one. -/
inductive Frame where
  | arr (vs : List Value)
  | obj (ms : List (String × Value)) (key : String)

/-- What comes next: a value, an element or the end of an array, a member or the end of an object, the member
after a comma, the colon after a key, or what follows a value. -/
inductive Expect where
  | value
  | element
  | member
  | next (ms : List (String × Value))
  | colon (ms : List (String × Value)) (key : String)
  | after (v : Value)

structure Parser where
  expect : Expect := .value
  stack : List Frame := []

namespace Parser

/-- A value starts. -/
def start (stack : List Frame) : Token → Option Parser
  | .scalar v => some ⟨.after v, stack⟩
  | .lbracket => some ⟨.element, stack⟩
  | .lbrace => some ⟨.member, stack⟩
  | _ => none

/-- The key of a member. -/
def key (stack : List Frame) (ms : List (String × Value)) : Token → Option Parser
  | .scalar (.str k) => some ⟨.colon ms k, stack⟩
  | _ => none

/-- A token after a value. -/
def follow (v : Value) : List Frame → Token → Option Parser
  | .arr vs :: stack, .comma => some ⟨.value, .arr (vs ++ [v]) :: stack⟩
  | .arr vs :: stack, .rbracket => some ⟨.after (.arr (vs ++ [v])), stack⟩
  | .obj ms k :: stack, .comma => some ⟨.next (ms ++ [(k, v)]), stack⟩
  | .obj ms k :: stack, .rbrace => some ⟨.after (.obj (ms ++ [(k, v)])), stack⟩
  | _, _ => none

/-- One token is read. -/
def read (p : Parser) (t : Token) : Option Parser :=
  match p.expect, t with
  | .value, t => start p.stack t
  | .element, .rbracket => some ⟨.after (.arr []), p.stack⟩
  | .element, t => start (.arr [] :: p.stack) t
  | .member, .rbrace => some ⟨.after (.obj []), p.stack⟩
  | .member, t => key p.stack [] t
  | .next ms, t => key p.stack ms t
  | .colon ms k, .colon => some ⟨.value, .obj ms k :: p.stack⟩
  | .colon _ _, _ => none
  | .after v, t => follow v p.stack t

def readAll (p : Parser) (ts : List Token) : Option Parser := ts.foldlM read p

/-- The value, if the text is over. -/
def finish (p : Parser) : Option Value :=
  match p with
  | ⟨.after v, []⟩ => some v
  | _ => none

end Parser

/-- The value of a text. -/
def parse (text : String) : Option Value :=
  (tokens text.toList).bind fun ts => (Parser.readAll {} ts).bind Parser.finish

example : (parse "\x7b\"a\": [1], \"a\" : \"\\ud83d\\ud83d\\ude00\"\x7d ").bind (fun v => match v.get "a" with
    | some (.str s) => some s
    | _ => none) = some "\uFFFD😀" := by decide +kernel

variable {w w' : List Char} {ts ts' : List Token}

/-! ## The characters of tokens -/

/-- The characters `w` are the tokens `ts`; the last one may be over with the character after them. -/
def Lexes (w : List Char) (ts : List Token) : Prop :=
  ∀ tokens, ∃ x : Lexer, Lexer.readAll ⟨.run [], tokens⟩ w = some x ∧ x.flush = some (tokens ++ ts)

namespace Lexer

theorem readAll_append (x : Lexer) (w w' : List Char) :
    x.readAll (w ++ w') = (x.readAll w).bind fun x' => x'.readAll w' := List.foldlM_append ..

theorem readAll_cons (x : Lexer) (c : Char) (w : List Char) :
    x.readAll (c :: w) = (x.read c).bind fun x' => x'.readAll w := List.foldlM_cons ..

theorem of_punctuation {c : Char} {t : Token} (h : punctuation c = some t) :
    c ≠ '"' ∧ isSpace c = false := by
  unfold punctuation at h
  split at h
  all_goals first
    | decide
    | cases h

/-- A token of one character is one after what comes before it. -/
theorem read_punctuation {x : Lexer} {c : Char} {t : Token} (hx : x.flush = some ts)
    (hc : punctuation c = some t) : x.read c = some ⟨.run [], ts ++ [t]⟩ := by
  obtain ⟨hquote, hspace⟩ := of_punctuation hc
  obtain ⟨mode, tokens⟩ := x
  cases mode with
  | run w =>
    simp only [read, if_neg hquote, hspace, hc, hx, Bool.false_eq_true, if_false, Option.map_some]
  | string ps => cases hx
  | escape ps => cases hx
  | hex ps k n => cases hx

/-- The character is in a literal or a number. -/
def IsRun (c : Char) : Prop := c ≠ '"' ∧ isSpace c = false ∧ punctuation c = none

theorem readAll_run {w : List Char} (hw : ∀ c ∈ w, IsRun c) (r : List Char) (tokens : List Token) :
    readAll ⟨.run r, tokens⟩ w = some ⟨.run (r ++ w), tokens⟩ := by
  induction w generalizing r with
  | nil => simp [readAll]
  | cons c w ih =>
    obtain ⟨hquote, hspace, hpunct⟩ := hw c List.mem_cons_self
    have hread : read ⟨.run r, tokens⟩ c = some ⟨.run (r ++ [c]), tokens⟩ := by
      simp only [read, if_neg hquote, hspace, hpunct, Bool.false_eq_true, if_false]
    rw [readAll_cons, hread, Option.bind_some, ih fun d hd => hw d (List.mem_cons_of_mem _ hd)]
    simp

end Lexer

theorem lexes_nil : Lexes [] [] := fun tokens => ⟨_, rfl, by simp [Lexer.flush]⟩

/-- Tokens, one of one character, and other tokens. -/
theorem Lexes.punctuation (h : Lexes w ts) (h' : Lexes w' ts') {c : Char} {t : Token}
    (hc : Rfc8259.punctuation c = some t) : Lexes (w ++ c :: w') (ts ++ t :: ts') := by
  intro tokens
  obtain ⟨x, hread, hx⟩ := h tokens
  obtain ⟨x', hread', hx'⟩ := h' (tokens ++ ts ++ [t])
  refine ⟨x', ?_, by simpa using hx'⟩
  rw [Lexer.readAll_append, hread, Option.bind_some, Lexer.readAll_cons, Lexer.read_punctuation hx hc,
    Option.bind_some, hread']

/-- A literal or a number. -/
theorem lexes_literal {v : Value} (hne : w ≠ []) (hw : ∀ c ∈ w, Lexer.IsRun c)
    (hv : literal w = some v) : Lexes w [.scalar v] := by
  intro tokens
  refine ⟨_, Lexer.readAll_run hw [] tokens, ?_⟩
  obtain ⟨c, w, rfl⟩ := List.exists_cons_of_ne_nil hne
  simp only [List.nil_append, Lexer.flush, hv, Option.map_some]

/-! ## Strings -/

/-- The piece stands for the character. -/
def Piece.Is (p : Piece) (c : Char) : Prop := p = .char c ∨ ∃ n < 0xD800, p = .code n ∧ Char.ofNat n = c

theorem join_of_is {ps : List Piece} {l : List Char} (h : List.Forall₂ Piece.Is ps l) : join ps = l := by
  induction h with
  | nil => rfl
  | @cons p c ps l hp _ ih =>
    rcases hp with rfl | ⟨n, hn, rfl, rfl⟩
    · rw [join, ih]
    · have halone : join (.code n :: ps) = alone n :: join ps := by
        rcases ps with _ | ⟨_ | m, ps⟩
        · rfl
        · rfl
        · rw [join, if_neg fun h => absurd h.1 (by omega)]
      rw [halone, ih, alone, if_neg fun h => absurd h.1 (by omega)]

/-- The characters `w` stand for the character in a string. -/
def Stands (w : List Char) (c : Char) : Prop :=
  ∀ ps tokens, ∃ p : Piece, p.Is c ∧
    Lexer.readAll ⟨.string ps, tokens⟩ w = some ⟨.string (ps ++ [p]), tokens⟩

/-- A character for itself. -/
theorem stands_self {c : Char} (hquote : c ≠ '"') (hbackslash : c ≠ '\\') (hc : 32 ≤ c.toNat) :
    Stands [c] c := by
  intro ps tokens
  refine ⟨.char c, .inl rfl, ?_⟩
  have h : ¬ c.toNat < 32 := by omega
  simp [Lexer.readAll, Lexer.read, hquote, hbackslash, h]

/-- A character after a backslash. -/
theorem stands_escape {c d : Char} (h : escapes.lookup c = some d) : Stands ['\\', c] d := by
  intro ps tokens
  refine ⟨.char d, .inl rfl, ?_⟩
  have hu : c ≠ 'u' := by
    rintro rfl
    have hnone : escapes.lookup 'u' = none := rfl
    rw [hnone] at h
    cases h
  simp [Lexer.readAll, Lexer.read, hu, h]

/-- A code. -/
theorem stands_code {a b c d : Char} {i j k l : Nat} (ha : hexValue a = some i) (hb : hexValue b = some j)
    (hc : hexValue c = some k) (hd : hexValue d = some l)
    (h : 16 * (16 * (16 * i + j) + k) + l < 0xD800) :
    Stands ['\\', 'u', a, b, c, d] (Char.ofNat (16 * (16 * (16 * i + j) + k) + l)) := by
  intro ps tokens
  refine ⟨.code (16 * (16 * (16 * i + j) + k) + l), .inr ⟨_, h, rfl, rfl⟩, ?_⟩
  simp [Lexer.readAll, Lexer.read, ha, hb, hc, hd]

theorem readAll_stands {ws : List (List Char)} {l : List Char} (h : List.Forall₂ Stands ws l)
    (ps : List Piece) (tokens : List Token) : ∃ ps', List.Forall₂ Piece.Is ps' l ∧
      Lexer.readAll ⟨.string ps, tokens⟩ ws.flatten = some ⟨.string (ps ++ ps'), tokens⟩ := by
  induction h generalizing ps with
  | nil => exact ⟨[], .nil, by simp [Lexer.readAll]⟩
  | @cons w c ws l hw _ ih =>
    obtain ⟨p, hp, hread⟩ := hw ps tokens
    obtain ⟨ps', hps', hread'⟩ := ih (ps ++ [p])
    refine ⟨p :: ps', .cons hp hps', ?_⟩
    rw [List.flatten_cons, Lexer.readAll_append, hread, Option.bind_some, hread']
    simp

/-- **A string is read back.** -/
theorem lexes_str {ws : List (List Char)} {s : String} (h : List.Forall₂ Stands ws s.toList) :
    Lexes ('"' :: (ws.flatten ++ ['"'])) [.scalar (.str s)] := by
  intro tokens
  obtain ⟨ps, hps, hread⟩ := readAll_stands h [] tokens
  have hopen : Lexer.read ⟨.run [], tokens⟩ '"' = some ⟨.string [], tokens⟩ := rfl
  refine ⟨⟨.run [], tokens ++ [.scalar (.str s)]⟩, ?_, rfl⟩
  rw [Lexer.readAll_cons, hopen, Option.bind_some, Lexer.readAll_append, hread, Option.bind_some,
    List.nil_append]
  simp [Lexer.readAll, Lexer.read, join_of_is hps]

/-! ## Integers -/

theorem eq_zero_of_head {n : Nat} (h : (Nat.toDigits 10 n).head? = some '0') : n = 0 := by
  induction n using Nat.strongRecOn with
  | ind n ih =>
    by_cases hn : n < 10
    · rw [Nat.toDigits_of_lt_base hn] at h
      have hdigit : ∀ m < 10, Nat.digitChar m = '0' → m = 0 := by decide
      exact hdigit n hn (Option.some.inj h)
    · have hn : 10 ≤ n := Nat.le_of_not_lt hn
      rw [Nat.toDigits_of_base_le (by decide) hn, List.head?_append_of_ne_nil _ Nat.toDigits_ne_nil] at h
      have := ih (n / 10) (by omega) h
      omega

theorem digits_toDigits (n : Nat) : digits (Nat.toDigits 10 n) = (Nat.toDigits 10 n, []) := by
  have hall : ∀ c ∈ Nat.toDigits 10 n, c.isDigit = true :=
    fun c hc => Nat.isDigit_of_mem_toDigits (by decide) (by decide) hc
  rw [digits, List.span_eq_takeWhile_dropWhile, List.takeWhile_eq_self_iff.mpr hall,
    List.dropWhile_eq_nil_iff.mpr hall]

theorem sign_toDigits (n : Nat) : sign (Nat.toDigits 10 n) = (false, Nat.toDigits 10 n) := by
  unfold sign
  split
  · next w hw =>
    have hdigit : ('-' : Char).isDigit = true :=
      Nat.isDigit_of_mem_toDigits (b := 10) (n := n) (by decide) (by decide) (hw ▸ List.mem_cons_self)
    exact absurd hdigit (by decide)
  · rfl

/-- The characters of an integer. -/
def integer (minus : Bool) (n : Nat) : List Char := (if minus then ['-'] else []) ++ Nat.toDigits 10 n

theorem number_integer (minus : Bool) (n : Nat) :
    number (integer minus n) = some (if minus then -(n : ℚ) else n) := by
  have hsign : sign (integer minus n) = (minus, Nat.toDigits 10 n) := by
    cases minus with
    | false => exact sign_toDigits n
    | true => rfl
  have hzero : ¬ (Nat.toDigits 10 n = [] ∨
      (Nat.toDigits 10 n).head? = some '0' ∧ (Nat.toDigits 10 n).length ≠ 1) := by
    rintro (h | ⟨hhead, hlen⟩)
    · exact Nat.toDigits_ne_nil h
    · rw [eq_zero_of_head hhead] at hlen
      exact hlen rfl
  simp only [number, hsign, digits_toDigits, if_neg hzero, fraction, exponent, Option.bind_some,
    Option.map_some, Nat.ofDigitChars_ten_toDigits, add_zero, mul_one]

theorem isRun_isDigit {c : Char} (h : c.isDigit = true) : Lexer.IsRun c := by
  refine ⟨?_, ?_, ?_⟩
  · rintro rfl
    exact absurd h (by decide)
  · have hspace : [' ', '\t', '\n', '\r'].all (fun d => !d.isDigit) = true := rfl
    rw [isSpace, List.contains_eq_mem, decide_eq_false_iff_not]
    intro hc
    have hdigit := List.all_eq_true.mp hspace c hc
    rw [h] at hdigit
    cases hdigit
  · unfold punctuation
    split
    all_goals first
      | rfl
      | exact absurd h (by decide)

theorem ne_of_number_eq_none {t : List Char} (ht : number t = none) (minus : Bool) (n : Nat) :
    integer minus n ≠ t := by
  rintro rfl
  rw [number_integer] at ht
  cases ht

/-- **An integer is read back.** -/
theorem lexes_integer (minus : Bool) (n : Nat) :
    Lexes (integer minus n) [.scalar (.num (if minus then -(n : ℚ) else n))] := by
  refine lexes_literal (List.append_ne_nil_of_right_ne_nil _ Nat.toDigits_ne_nil) ?_ ?_
  · intro c hc
    rcases List.mem_append.mp hc with hc | hc
    · cases minus with
      | false => cases hc
      | true =>
        rw [List.mem_singleton.mp hc]
        exact ⟨by decide, by decide, rfl⟩
    · exact isRun_isDigit (Nat.isDigit_of_mem_toDigits (by decide) (by decide) hc)
  · rw [literal, if_neg (ne_of_number_eq_none rfl minus n), if_neg (ne_of_number_eq_none rfl minus n),
      if_neg (ne_of_number_eq_none rfl minus n), number_integer, Option.map_some]

/-! ## Objects -/

/-- The tokens of a member whose value is one. -/
def memberTokens (m : String × Value) : List Token := [.scalar (.str m.1), .colon, .scalar m.2]

theorem lexes_member {k : String} {v : Value} (hk : Lexes w [.scalar (.str k)])
    (hv : Lexes w' [.scalar v]) : Lexes (w ++ ':' :: w') (memberTokens (k, v)) :=
  hk.punctuation hv rfl

theorem lexes_intercalate {ws : List (List Char)} {tss : List (List Token)}
    (h : List.Forall₂ Lexes ws tss) : Lexes ([','].intercalate ws) ([.comma].intercalate tss) := by
  induction h with
  | nil => exact lexes_nil
  | @cons w ts ws tss hw hws ih =>
    cases hws with
    | nil =>
      rw [List.intercalate_singleton, List.intercalate_singleton]
      exact hw
    | cons hw' hws' =>
      rw [List.intercalate_cons_cons, List.intercalate_cons_cons, List.append_assoc, List.append_assoc]
      exact hw.punctuation ih rfl

theorem Parser.readAll_append (p : Parser) (ts ts' : List Token) :
    p.readAll (ts ++ ts') = (p.readAll ts).bind fun p' => p'.readAll ts' := List.foldlM_append ..

/-- The members of an object are read, up to the end of the last one. -/
theorem Parser.readAll_members {e : Expect} {acc ms : List (String × Value)}
    (he : e = .next acc ∨ e = .member ∧ acc = []) (hne : ms ≠ []) (stack : List Frame) :
    ∃ ms' k v, ms' ++ [(k, v)] = acc ++ ms ∧
      Parser.readAll ⟨e, stack⟩ ([.comma].intercalate (ms.map memberTokens)) =
        some ⟨.after v, .obj ms' k :: stack⟩ := by
  induction ms generalizing e acc with
  | nil => exact absurd rfl hne
  | cons m ms ih =>
    obtain ⟨k, v⟩ := m
    have hmember : Parser.readAll ⟨e, stack⟩ (memberTokens (k, v)) =
        some ⟨.after v, .obj acc k :: stack⟩ := by
      rcases he with rfl | ⟨rfl, rfl⟩
      · rfl
      · rfl
    cases ms with
    | nil => exact ⟨acc, k, v, rfl, by simpa using hmember⟩
    | cons m' ms =>
      obtain ⟨ms', k', v', hms, hread⟩ := ih (e := .next (acc ++ [(k, v)])) (.inl rfl) (by simp)
      refine ⟨ms', k', v', by simpa using hms, ?_⟩
      rw [List.map_cons, List.map_cons, List.intercalate_cons_cons, List.append_assoc,
        Parser.readAll_append, hmember, Option.bind_some]
      exact hread

theorem tokens_of_lexes (h : Lexes w ts) : tokens w = some ts := by
  obtain ⟨x, hread, hx⟩ := h []
  have hread : Lexer.readAll {} w = some x := hread
  rw [tokens, hread, Option.bind_some, hx, List.nil_append]

/-- **An object is read back.** -/
theorem parse_object {text : String} {ws : List (List Char)} {ms : List (String × Value)}
    (htext : text.toList = '{' :: ([','].intercalate ws ++ ['}']))
    (h : List.Forall₂ (fun w m => Lexes w (memberTokens m)) ws ms) (hne : ms ≠ []) :
    parse text = some (.obj ms) := by
  have hlexes : Lexes text.toList (.lbrace :: ([.comma].intercalate (ms.map memberTokens) ++ [.rbrace])) := by
    rw [htext]
    exact lexes_nil.punctuation ((lexes_intercalate (List.forall₂_map_right_iff.mpr h)).punctuation
      lexes_nil rfl) rfl
  obtain ⟨ms', k, v, hms, hread⟩ := Parser.readAll_members (.inr ⟨rfl, rfl⟩) hne []
  rw [List.nil_append] at hms
  have hopen : Parser.readAll {} [.lbrace] = some ⟨.member, []⟩ := rfl
  rw [parse, tokens_of_lexes hlexes, Option.bind_some, ← List.singleton_append, Parser.readAll_append,
    hopen, Option.bind_some, Parser.readAll_append, hread, Option.bind_some, ← hms]
  rfl

end Rfc8259
