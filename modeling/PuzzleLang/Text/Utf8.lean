/-!
# Bytes as text

Files hold text in UTF-8.  Decoding is strict: the first sequence that is no character is reported
with its place, its length and what is wrong with it.  Every line ending becomes a single line
feed.
-/

namespace PuzzleLang

/-- What is wrong with a sequence of bytes. -/
inductive EncodingDefect
  /-- No character starts with this byte. -/
  | startByte
  /-- The sequence goes on with a byte that cannot continue it. -/
  | continuation
  /-- The bytes end inside the sequence. -/
  | cutShort
deriving DecidableEq, Repr

/-- A sequence of bytes that is no character: where it starts, the bytes of its longest valid
beginning, and what is wrong. -/
structure EncodingFault where
  position : Nat
  first : UInt8
  length : Nat
  defect : EncodingDefect
deriving DecidableEq, Repr

/-- How a character that starts with byte `b` goes on: the bits that `b` brings, the number of
bytes that follow, and the range of the first of them. -/
structure LeadByte where
  bits : Nat
  following : Nat
  low : UInt8
  high : UInt8

/-- The lead bytes of sequences of two to four bytes. -/
def LeadByte.of? (b : UInt8) : Option LeadByte :=
  if 0xc2 ≤ b && b ≤ 0xdf then some ⟨b.toNat - 0xc0, 1, 0x80, 0xbf⟩
  else if b == 0xe0 then some ⟨0, 2, 0xa0, 0xbf⟩
  else if b == 0xed then some ⟨0xd, 2, 0x80, 0x9f⟩
  else if 0xe1 ≤ b && b ≤ 0xef then some ⟨b.toNat - 0xe0, 2, 0x80, 0xbf⟩
  else if b == 0xf0 then some ⟨0, 3, 0x90, 0xbf⟩
  else if 0xf1 ≤ b && b ≤ 0xf3 then some ⟨b.toNat - 0xf0, 3, 0x80, 0xbf⟩
  else if b == 0xf4 then some ⟨4, 3, 0x80, 0x8f⟩
  else none

/-- The part of a sequence after its first byte: the code point it completes and the bytes after
it, or the number of bytes that were valid and the defect. -/
def continueSequence (code : Nat) :
    (following : Nat) → (low high : UInt8) → (valid : Nat) → List UInt8 →
      Except (Nat × EncodingDefect) (Nat × List UInt8)
  | 0, _, _, _, bytes => .ok (code, bytes)
  | _ + 1, _, _, valid, [] => .error (valid, .cutShort)
  | following + 1, low, high, valid, b :: bytes =>
    if low ≤ b && b ≤ high then
      continueSequence (code * 64 + (b.toNat - 0x80)) following 0x80 0xbf (valid + 1) bytes
    else .error (valid, .continuation)

theorem length_le_of_continueSequence
    {code following valid : Nat} {low high : UInt8} {bytes rest : List UInt8} {code' : Nat}
    (h : continueSequence code following low high valid bytes = .ok (code', rest)) :
    rest.length ≤ bytes.length := by
  induction following generalizing code low high valid bytes with
  | zero =>
    simp only [continueSequence, Except.ok.injEq, Prod.mk.injEq] at h
    simp [h.2]
  | succ following ih =>
    cases bytes with
    | nil => simp [continueSequence] at h
    | cons b bytes =>
      simp only [continueSequence] at h
      split at h
      · exact Nat.le_succ_of_le (ih h)
      · simp at h

/-- The characters of `bytes`, which start at `position`, after those in `seen`, last one
first. -/
def decodeFrom (position : Nat) (seen : List Char) (bytes : List UInt8) :
    Except EncodingFault (List Char) :=
  match bytes with
  | [] => .ok seen.reverse
  | b :: bytes =>
    if b < 0x80 then decodeFrom (position + 1) (Char.ofNat b.toNat :: seen) bytes
    else
      match LeadByte.of? b with
      | none => .error ⟨position, b, 1, .startByte⟩
      | some lead =>
        match h : continueSequence lead.bits lead.following lead.low lead.high 1 bytes with
        | .error (valid, defect) => .error ⟨position, b, valid, defect⟩
        | .ok (code, rest) =>
          decodeFrom (position + 1 + lead.following) (Char.ofNat code :: seen) rest
termination_by bytes.length
decreasing_by
  · simp
  · have := length_le_of_continueSequence h
    simp only [List.length_cons]
    omega

/-- The characters of a sequence of bytes. -/
def decodeUtf8 (bytes : ByteArray) : Except EncodingFault (List Char) :=
  decodeFrom 0 [] bytes.toList

/-- The characters after those in `seen`, last one first, with every carriage return, alone or
before a line feed, as one line feed. -/
def unifyNewlinesFrom (seen : List Char) : List Char → List Char
  | [] => seen.reverse
  | '\r' :: '\n' :: cs => unifyNewlinesFrom ('\n' :: seen) cs
  | '\r' :: cs => unifyNewlinesFrom ('\n' :: seen) cs
  | c :: cs => unifyNewlinesFrom (c :: seen) cs

/-- The text of a file. -/
def decodeText (bytes : ByteArray) : Except EncodingFault String :=
  (decodeUtf8 bytes).map fun cs => String.ofList (unifyNewlinesFrom [] cs)

/-- The words for a defect. -/
def EncodingDefect.message : EncodingDefect → String
  | .startByte => "invalid start byte"
  | .continuation => "invalid continuation byte"
  | .cutShort => "unexpected end of data"

end PuzzleLang
