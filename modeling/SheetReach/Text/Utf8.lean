/-! Reading octets as text: UTF-8 with a replacement character for what is malformed, and one newline
character for every kind of line end. -/
namespace SheetReach.Text.Utf8

/-- What a character's octets so far promise: how many are still owed, the range of the next one, and
the bits read. Nothing is owed between characters. -/
structure Pending where
  owed : Nat := 0
  low : Nat := 0x80
  high : Nat := 0xBF
  bits : Nat := 0

def replacement : Char := '�'

/-- The first octet of a character: the text it gives at once and what it promises. -/
def start (octet : Nat) : List Char × Pending :=
  if octet < 0x80 then ([Char.ofNat octet], {})
  else if octet < 0xC2 then ([replacement], {})
  else if octet < 0xE0 then ([], ⟨1, 0x80, 0xBF, octet - 0xC0⟩)
  else if octet = 0xE0 then ([], ⟨2, 0xA0, 0xBF, 0⟩)
  else if octet = 0xED then ([], ⟨2, 0x80, 0x9F, 0xD⟩)
  else if octet < 0xF0 then ([], ⟨2, 0x80, 0xBF, octet - 0xE0⟩)
  else if octet = 0xF0 then ([], ⟨3, 0x90, 0xBF, 0⟩)
  else if octet < 0xF4 then ([], ⟨3, 0x80, 0xBF, octet - 0xF0⟩)
  else if octet = 0xF4 then ([], ⟨3, 0x80, 0x8F, 4⟩)
  else ([replacement], {})

/-- One octet. An octet that breaks a promise closes the character before it with one replacement and
begins a character itself. -/
def step (pending : Pending) (octet : Nat) : List Char × Pending :=
  if pending.owed = 0 then start octet
  else if pending.low ≤ octet && octet ≤ pending.high then
    let bits := pending.bits * 64 + (octet - 0x80)
    if pending.owed = 1 then ([Char.ofNat bits], {}) else ([], ⟨pending.owed - 1, 0x80, 0xBF, bits⟩)
  else
    let (text, next) := start octet
    (replacement :: text, next)

def decodeFrom : Pending → List UInt8 → List Char
  | pending, [] => if pending.owed = 0 then [] else [replacement]
  | pending, octet :: rest =>
    let (text, next) := step pending octet.toNat
    text ++ decodeFrom next rest

/-- The text of some octets, with one replacement for each longest malformed piece. -/
def decode (octets : List UInt8) : List Char :=
  decodeFrom {} octets

/-- Every line end, of one or two characters, as one newline. -/
def unifyNewlines : List Char → List Char
  | [] => []
  | '\r' :: '\n' :: rest => '\n' :: unifyNewlines rest
  | '\r' :: rest => '\n' :: unifyNewlines rest
  | c :: rest => c :: unifyNewlines rest

end SheetReach.Text.Utf8
