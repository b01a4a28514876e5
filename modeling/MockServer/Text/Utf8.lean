/-
  MockServer.Text.Utf8 — text as bytes and back.

  Two readers share one step.  The strict one refuses a sequence with
  any malformed part; the lenient one puts the replacement character
  for each longest malformed part that still starts a character.
-/

namespace MockServer.Text.Utf8

def encode (cs : List Char) : List UInt8 := cs.flatMap String.utf8EncodeChar

def ofString (s : String) : List UInt8 := encode s.toList

/-- Is `b` one of the bytes `low … high`? -/
def within (low high : UInt8) (b : UInt8) : Bool := low ≤ b && b ≤ high

/-- Is `b` a continuation byte? -/
def isTail (b : UInt8) : Bool := within 0x80 0xBF b

/-- The six payload bits of a continuation byte. -/
def payload (b : UInt8) : Nat := b.toNat % 64

/-- The bytes that may follow a leading byte of a longer character. -/
def second (lead : UInt8) : UInt8 → Bool :=
  if lead = 0xE0 then within 0xA0 0xBF
  else if lead = 0xED then within 0x80 0x9F
  else if lead = 0xF0 then within 0x90 0xBF
  else if lead = 0xF4 then within 0x80 0x8F
  else isTail

/-- Reads one character whose first byte is `b`: the character, or nothing for a malformed part,
and the bytes after it. -/
def step (b : UInt8) (rest : List UInt8) : Option Char × List UInt8 :=
  if b < 0x80 then (some (Char.ofNat b.toNat), rest)
  else if within 0xC2 0xDF b then
    match rest with
    | c :: r =>
      if isTail c then (some (Char.ofNat (b.toNat % 32 * 64 + payload c)), r) else (none, rest)
    | [] => (none, rest)
  else if within 0xE0 0xEF b then
    match rest with
    | c :: r =>
      if second b c then
        match r with
        | d :: r' =>
          if isTail d then
            (some (Char.ofNat (b.toNat % 16 * 4096 + payload c * 64 + payload d)), r')
          else (none, r)
        | [] => (none, r)
      else (none, rest)
    | [] => (none, rest)
  else if within 0xF0 0xF4 b then
    match rest with
    | c :: r =>
      if second b c then
        match r with
        | d :: r' =>
          if isTail d then
            match r' with
            | e :: r'' =>
              if isTail e then
                (some (Char.ofNat
                  (b.toNat % 8 * 262144 + payload c * 4096 + payload d * 64 + payload e)), r'')
              else (none, r')
            | [] => (none, r')
          else (none, r)
        | [] => (none, r)
      else (none, rest)
    | [] => (none, rest)
  else (none, rest)

/-- A step never gives back more bytes than it was given. -/
theorem step_length_le (b : UInt8) (rest : List UInt8) :
    (step b rest).2.length ≤ rest.length := by
  unfold step
  repeat' split
  all_goals (simp only [List.length_cons]; omega)

/-- The characters of a byte sequence, if every part of it is well formed. -/
def decode? : List UInt8 → Option (List Char)
  | [] => some []
  | b :: rest =>
    match (step b rest).1 with
    | some c => (decode? (step b rest).2).map (c :: ·)
    | none => none
termination_by bytes => bytes.length
decreasing_by
  have := step_length_le b rest
  simp only [List.length_cons]
  omega

/-- The characters of a byte sequence, with the replacement character for malformed parts. -/
def decodeLossy : List UInt8 → List Char
  | [] => []
  | b :: rest => (step b rest).1.getD '\uFFFD' :: decodeLossy (step b rest).2
termination_by bytes => bytes.length
decreasing_by
  have := step_length_le b rest
  simp only [List.length_cons]
  omega

end MockServer.Text.Utf8
