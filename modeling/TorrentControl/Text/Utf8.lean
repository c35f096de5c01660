/-! # UTF-8

The encoding of a text as bytes, and two readings of bytes as text. The strict one stops at the
first byte that is not part of a well-formed sequence; the lossy one puts one replacement
character U+FFFD for each maximal ill-formed part, so that it is defined on all bytes. -/

namespace TorrentControl.Text.Utf8

def encodeChar (c : Char) : List UInt8 :=
  let n := c.toNat
  if n < 0x80 then [UInt8.ofNat n]
  else if n < 0x800 then [UInt8.ofNat (0xC0 + n / 64), UInt8.ofNat (0x80 + n % 64)]
  else if n < 0x10000 then
    [UInt8.ofNat (0xE0 + n / 4096), UInt8.ofNat (0x80 + n / 64 % 64), UInt8.ofNat (0x80 + n % 64)]
  else
    [UInt8.ofNat (0xF0 + n / 262144), UInt8.ofNat (0x80 + n / 4096 % 64),
     UInt8.ofNat (0x80 + n / 64 % 64), UInt8.ofNat (0x80 + n % 64)]

def encode (cs : List Char) : List UInt8 :=
  cs.flatMap encodeChar

def encodeText (s : String) : List UInt8 :=
  encode s.toList

/-- The number of bytes that a character takes. -/
def width (c : Char) : Nat :=
  if c.toNat < 0x80 then 1 else if c.toNat < 0x800 then 2 else if c.toNat < 0x10000 then 3 else 4

/-- The number of bytes that a text takes. -/
def byteLength (cs : List Char) : Nat :=
  cs.foldr (fun c bytes => width c + bytes) 0

/-! ## Reading one sequence -/

/-- What a leading byte promises: the value of its own bits, the range that the byte after it must
lie in, and the number of further continuation bytes after that one. -/
structure Lead where
  bits : Nat
  low : Nat
  high : Nat
  further : Nat
deriving DecidableEq

/-- The narrowed ranges after E0, ED, F0 and F4 keep out overlong forms, surrogates and values
above U+10FFFF. -/
def lead? (b : Nat) : Option Lead :=
  if 0xC2 ≤ b ∧ b ≤ 0xDF then some ⟨b - 0xC0, 0x80, 0xBF, 0⟩
  else if b = 0xE0 then some ⟨0, 0xA0, 0xBF, 1⟩
  else if b = 0xED then some ⟨0xD, 0x80, 0x9F, 1⟩
  else if 0xE1 ≤ b ∧ b ≤ 0xEF then some ⟨b - 0xE0, 0x80, 0xBF, 1⟩
  else if b = 0xF0 then some ⟨0, 0x90, 0xBF, 2⟩
  else if 0xF1 ≤ b ∧ b ≤ 0xF3 then some ⟨b - 0xF0, 0x80, 0xBF, 2⟩
  else if b = 0xF4 then some ⟨4, 0x80, 0x8F, 2⟩
  else none

/-- Reads the continuation bytes that are still due. The bytes that were not used come back in
both cases; `none` says that the sequence broke off before them. -/
def continued (bits : Nat) : Nat → List UInt8 → Option Char × List UInt8
  | 0, rest => (some (Char.ofNat bits), rest)
  | _ + 1, [] => (none, [])
  | due + 1, b :: rest =>
    if 0x80 ≤ b.toNat ∧ b.toNat ≤ 0xBF then continued (bits * 64 + (b.toNat - 0x80)) due rest
    else (none, b :: rest)

/-- Reads one character, or skips one maximal ill-formed part. -/
def decodeOne (b : UInt8) (rest : List UInt8) : Option Char × List UInt8 :=
  if b.toNat < 0x80 then (some (Char.ofNat b.toNat), rest)
  else
    match lead? b.toNat with
    | none => (none, rest)
    | some l =>
      match rest with
      | [] => (none, [])
      | c :: more =>
        if l.low ≤ c.toNat ∧ c.toNat ≤ l.high then
          continued (l.bits * 64 + (c.toNat - 0x80)) l.further more
        else (none, rest)

theorem continued_length_le (bits : Nat) :
    ∀ (due : Nat) (bytes : List UInt8), (continued bits due bytes).2.length ≤ bytes.length
  | 0, _ => Nat.le_refl _
  | _ + 1, [] => Nat.le_refl _
  | due + 1, b :: rest => by
    simp only [continued]
    split
    · have := continued_length_le (bits * 64 + (b.toNat - 0x80)) due rest
      simp only [List.length_cons]
      omega
    · exact Nat.le_refl _

theorem decodeOne_length_le (b : UInt8) (rest : List UInt8) :
    (decodeOne b rest).2.length ≤ rest.length := by
  unfold decodeOne
  split
  · exact Nat.le_refl _
  · split
    · exact Nat.le_refl _
    · split
      · exact Nat.le_refl _
      · split
        · refine Nat.le_trans (continued_length_le _ _ _) ?_
          simp
        · exact Nat.le_refl _

/-! ## Reading all of it -/

def replacement : Char := '\uFFFD'

def decodeLossy : List UInt8 → List Char
  | [] => []
  | b :: rest =>
    (decodeOne b rest).1.getD replacement :: decodeLossy (decodeOne b rest).2
termination_by bytes => bytes.length
decreasing_by
  have := decodeOne_length_le b rest
  simp only [List.length_cons]
  omega

def decodeLossyText (bytes : List UInt8) : String :=
  String.ofList (decodeLossy bytes)

/-- The characters before the first ill-formed part, and whether there is none. -/
def decodeStrict : List UInt8 → List Char × Bool
  | [] => ([], true)
  | b :: rest =>
    match (decodeOne b rest).1 with
    | none => ([], false)
    | some c =>
      let (cs, whole) := decodeStrict (decodeOne b rest).2
      (c :: cs, whole)
termination_by bytes => bytes.length
decreasing_by
  have := decodeOne_length_le b rest
  simp only [List.length_cons]
  omega

end TorrentControl.Text.Utf8
