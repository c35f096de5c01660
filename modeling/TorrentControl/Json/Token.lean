import TorrentControl.Json.Numeral
import TorrentControl.Text.Hex

/-! # JSON tokens

A text is cut into tokens up to the first place at which no token can start or one breaks off. That
place is a token of its own, `fault`, and the last one, so that a reader that goes from left to right
meets it only after everything before it. -/

namespace TorrentControl.Json

/-- A piece of a string: a character, or half of a surrogate pair that an escape names. -/
inductive Piece where
  | char (c : Char)
  | half (unit : Nat)
deriving DecidableEq, Repr

inductive Token where
  | openBrace
  | closeBrace
  | openBracket
  | closeBracket
  | colon
  | comma
  | null
  | bool (b : Bool)
  | number (n : Numeral)
  | string (pieces : List Piece)
  | fault
deriving DecidableEq, Repr

/-! ## Strings -/

def isLeadingHalf (unit : Nat) : Bool :=
  0xD800 ≤ unit && unit < 0xDC00

def isTrailingHalf (unit : Nat) : Bool :=
  0xDC00 ≤ unit && unit < 0xE000

def joinHalves (leading trailing : Nat) : Char :=
  Char.ofNat (0x10000 + (leading - 0xD800) * 0x400 + (trailing - 0xDC00))

/-- The characters of a string, with each leading half joined to the trailing half right after it.
A half without its partner leaves the string without characters. -/
def joinPieces : List Piece → Option (List Char)
  | [] => some []
  | .char c :: rest => (joinPieces rest).map (c :: ·)
  | .half leading :: .half trailing :: rest =>
    if isLeadingHalf leading ∧ isTrailingHalf trailing then
      (joinPieces rest).map (joinHalves leading trailing :: ·)
    else none
  | .half _ :: _ => none

/-- The number that four hexadecimal digits denote. -/
def unit? (a b c d : Char) : Option Nat := do
  let high := 16 * (← Text.Hex.digitValue? a) + (← Text.Hex.digitValue? b)
  let low := 16 * (← Text.Hex.digitValue? c) + (← Text.Hex.digitValue? d)
  return 256 * high + low

def pieceOfUnit (unit : Nat) : Piece :=
  if isLeadingHalf unit || isTrailingHalf unit then .half unit else .char (Char.ofNat unit)

/-- The character that a one-letter escape stands for. -/
def escaped? : Char → Option Char
  | '"' => some '"'
  | '\\' => some '\\'
  | '/' => some '/'
  | 'b' => some '\x08'
  | 'f' => some '\x0c'
  | 'n' => some '\n'
  | 'r' => some '\r'
  | 't' => some '\t'
  | _ => none

/-- Reads the rest of a string, its closing quote included. -/
def lexString : List Char → Option (List Piece × List Char)
  | [] => none
  | '"' :: rest => some ([], rest)
  | '\\' :: 'u' :: a :: b :: c :: d :: rest => do
    let unit ← unit? a b c d
    let (pieces, more) ← lexString rest
    return (pieceOfUnit unit :: pieces, more)
  | '\\' :: e :: rest => do
    let c ← escaped? e
    let (pieces, more) ← lexString rest
    return (.char c :: pieces, more)
  | c :: rest =>
    if c.toNat < 0x20 ∨ c = '\\' then none
    else do
      let (pieces, more) ← lexString rest
      return (.char c :: pieces, more)

/-! ## Numbers -/

def isDigit (c : Char) : Bool :=
  Number.Decimal.isDigit c

/-- One zero, or digits that do not start with one. -/
def lexWhole (cs : List Char) : Option (List Char × List Char) :=
  match cs.takeWhile isDigit with
  | [] => none
  | ['0'] => some (['0'], cs.dropWhile isDigit)
  | '0' :: _ => none
  | digits => some (digits, cs.dropWhile isDigit)

def lexFraction : List Char → Option (List Char × List Char)
  | '.' :: cs =>
    match cs.takeWhile isDigit with
    | [] => none
    | digits => some (digits, cs.dropWhile isDigit)
  | cs => some ([], cs)

def lexSign : List Char → Bool × List Char
  | '-' :: cs => (true, cs)
  | '+' :: cs => (false, cs)
  | cs => (false, cs)

def lexExponent (cs : List Char) : Option (Bool × List Char × List Char) :=
  match cs with
  | 'e' :: rest | 'E' :: rest =>
    let (negative, digitsAndMore) := lexSign rest
    match digitsAndMore.takeWhile isDigit with
    | [] => none
    | digits => some (negative, digits, digitsAndMore.dropWhile isDigit)
  | _ => some (false, [], cs)

/-- Reads a number after its minus sign, if it has one. -/
def lexNumber (negative : Bool) (cs : List Char) : Option (Numeral × List Char) := do
  let (whole, cs) ← lexWhole cs
  let (fraction, cs) ← lexFraction cs
  let (exponentNegative, exponent, cs) ← lexExponent cs
  return (⟨negative, whole, fraction, exponentNegative, exponent⟩, cs)

/-! ## Tokens -/

/-- White space between tokens. -/
def isSpace (c : Char) : Bool :=
  c == ' ' || c == '\t' || c == '\n' || c == '\r'

def lexWord (token : Token) (word rest : List Char) : Token × List Char :=
  if word.isPrefixOf rest then (token, rest.drop word.length) else (.fault, [])

def orFault {α : Type} (make : α → Token) : Option (α × List Char) → Token × List Char
  | some (a, rest) => (make a, rest)
  | none => (.fault, [])

/-- The token that starts with a character, and what follows it; nothing follows a fault. -/
def lexOne (c : Char) (rest : List Char) : Token × List Char :=
  match c with
  | '\x7b' => (.openBrace, rest)
  | '\x7d' => (.closeBrace, rest)
  | '[' => (.openBracket, rest)
  | ']' => (.closeBracket, rest)
  | ':' => (.colon, rest)
  | ',' => (.comma, rest)
  | '"' => orFault .string (lexString rest)
  | 'n' => lexWord .null "ull".toList rest
  | 't' => lexWord (.bool true) "rue".toList rest
  | 'f' => lexWord (.bool false) "alse".toList rest
  | '-' => orFault .number (lexNumber true rest)
  | c => if isDigit c then orFault .number (lexNumber false (c :: rest)) else (.fault, [])

/-! ## Every token takes at least one character -/

theorem lexString_length_le :
    ∀ (cs : List Char) {p : List Piece × List Char},
      lexString cs = some p → p.2.length ≤ cs.length := by
  intro cs
  fun_induction lexString cs with
  | case1 => simp
  | case2 rest => intro p h; simp only [Option.some.injEq] at h; subst h; simp
  | case3 a b c d rest ih =>
    intro p h
    simp only [Option.bind_eq_bind, Option.bind_eq_some_iff, Option.pure_def, Option.some.injEq,
      Prod.exists] at h
    obtain ⟨_, _, pieces, more, hm, rfl⟩ := h
    have := ih hm
    simp only [List.length_cons] at this ⊢
    omega
  | case4 e rest _ ih =>
    intro p h
    simp only [Option.bind_eq_bind, Option.bind_eq_some_iff, Option.pure_def, Option.some.injEq,
      Prod.exists] at h
    obtain ⟨_, _, pieces, more, hm, rfl⟩ := h
    have := ih hm
    simp only [List.length_cons] at this ⊢
    omega
  | case5 => simp
  | case6 c rest _ _ _ _ ih =>
    intro p h
    simp only [Option.bind_eq_bind, Option.bind_eq_some_iff, Option.pure_def, Option.some.injEq,
      Prod.exists] at h
    obtain ⟨pieces, more, hm, rfl⟩ := h
    have := ih hm
    simp only [List.length_cons] at this ⊢
    omega

theorem dropWhile_length_le (p : Char → Bool) (cs : List Char) :
    (cs.dropWhile p).length ≤ cs.length :=
  (List.dropWhile_suffix p).length_le

theorem lexWhole_length_lt {cs ds rest : List Char} (h : lexWhole cs = some (ds, rest)) :
    rest.length < cs.length := by
  cases cs with
  | nil => simp [lexWhole] at h
  | cons c cs =>
    have lt : isDigit c = true → ((c :: cs).dropWhile isDigit).length < (c :: cs).length := by
      intro hc
      have := dropWhile_length_le isDigit cs
      simp only [List.dropWhile_cons, hc, if_true, List.length_cons]
      omega
    by_cases hc : isDigit c
    · unfold lexWhole at h
      split at h
      · simp at h
      · simp only [Option.some.injEq, Prod.mk.injEq] at h
        exact h.2 ▸ lt hc
      · simp at h
      · simp only [Option.some.injEq, Prod.mk.injEq] at h
        exact h.2 ▸ lt hc
    · simp [lexWhole, hc] at h

theorem lexFraction_length_le {cs ds rest : List Char} (h : lexFraction cs = some (ds, rest)) :
    rest.length ≤ cs.length := by
  unfold lexFraction at h
  split at h
  · rename_i cs
    have := dropWhile_length_le isDigit cs
    split at h
    · simp at h
    · simp only [Option.some.injEq, Prod.mk.injEq] at h
      rw [← h.2]
      simp only [List.length_cons]
      omega
  · simp only [Option.some.injEq, Prod.mk.injEq] at h
    exact Nat.le_of_eq (congrArg List.length h.2.symm)

theorem lexSign_length_le (cs : List Char) : (lexSign cs).2.length ≤ cs.length := by
  unfold lexSign
  split <;> simp

theorem lexExponent_length_le {cs ds rest : List Char} {sign : Bool}
    (h : lexExponent cs = some (sign, ds, rest)) : rest.length ≤ cs.length := by
  have step : ∀ more : List Char,
      ((lexSign more).2.dropWhile isDigit).length ≤ more.length := fun more =>
    Nat.le_trans (dropWhile_length_le _ _) (lexSign_length_le more)
  unfold lexExponent at h
  split at h
  · rename_i more
    have := step more
    simp only at h
    split at h
    · simp at h
    · simp only [Option.some.injEq, Prod.mk.injEq] at h
      rw [← h.2.2]
      simp only [List.length_cons]
      omega
  · rename_i more
    have := step more
    simp only at h
    split at h
    · simp at h
    · simp only [Option.some.injEq, Prod.mk.injEq] at h
      rw [← h.2.2]
      simp only [List.length_cons]
      omega
  · simp only [Option.some.injEq, Prod.mk.injEq] at h
    exact Nat.le_of_eq (congrArg List.length h.2.2.symm)

theorem lexNumber_length_lt {negative : Bool} {cs rest : List Char} {n : Numeral}
    (h : lexNumber negative cs = some (n, rest)) : rest.length < cs.length := by
  simp only [lexNumber, Option.bind_eq_bind, Option.bind_eq_some_iff, Option.pure_def,
    Option.some.injEq, Prod.exists, Prod.mk.injEq] at h
  obtain ⟨_, cs₁, h₁, _, cs₂, h₂, _, _, cs₃, h₃, _, rfl⟩ := h
  have := lexWhole_length_lt h₁
  have := lexFraction_length_le h₂
  have := lexExponent_length_le h₃
  omega

theorem lexWord_length_le (token : Token) (word rest : List Char) :
    (lexWord token word rest).2.length ≤ rest.length := by
  unfold lexWord
  split
  · simp
  · simp

theorem lexOne_length_le (c : Char) (rest : List Char) :
    (lexOne c rest).2.length ≤ rest.length := by
  unfold lexOne
  split
  · exact Nat.le_refl _
  · exact Nat.le_refl _
  · exact Nat.le_refl _
  · exact Nat.le_refl _
  · exact Nat.le_refl _
  · exact Nat.le_refl _
  · cases h : lexString rest with
    | none => simp [orFault]
    | some p => exact lexString_length_le rest h
  · exact lexWord_length_le _ _ _
  · exact lexWord_length_le _ _ _
  · exact lexWord_length_le _ _ _
  · cases h : lexNumber true rest with
    | none => simp [orFault]
    | some p => exact Nat.le_of_lt (lexNumber_length_lt h)
  · split
    · cases h : lexNumber false (_ :: rest) with
      | none => simp [orFault]
      | some p => exact Nat.le_of_lt_succ (lexNumber_length_lt h)
    · simp

/-- The tokens of a text. A fault is the last one. -/
def tokens : List Char → List Token
  | [] => []
  | c :: rest =>
    if isSpace c then tokens rest
    else (lexOne c rest).1 :: tokens (lexOne c rest).2
termination_by cs => cs.length
decreasing_by
  · simp
  · have := lexOne_length_le c rest
    simp only [List.length_cons]
    omega

end TorrentControl.Json
