import Montage.Numeric.Power

/-!
# Stream labels

Names of the signals inside a filter graph. A label is either a pad, a stream of an input file, or
a signal with a role. Labels are handed out by a pool, which numbers repeated requests, so that no
two labels of one pool agree. As text, labels come from a supply of names, which looks for a name
that was not handed out before.
-/

namespace Montage.Graph

open Montage.Numeric (twoTo)

/-- The two streams of an input file. -/
inductive Track where
  | video
  | audio
deriving DecidableEq

/-- What a signal is for (`StreamKind`). -/
inductive Role where
  | clip
  | canvas
  | placed
  | join
  | edge
  | caption
  | overlay
  | overlaySource
  | title
  | badge
  | source
  | stack
  | music
  | voice
  | videoOut
  | audioOut
deriving DecidableEq

/-- The name that labels of a role begin with (`StreamKind.prefix`). -/
def Role.name : Role → String
  | clip => "clip"
  | canvas => "canvas"
  | placed => "placed"
  | join => "xf"
  | edge => "edge"
  | caption => "cap"
  | overlay => "ovl"
  | overlaySource => "ovlsrc"
  | title => "title"
  | badge => "rank"
  | source => "src"
  | stack => "stack"
  | music => "music"
  | voice => "voice"
  | videoOut => "vout"
  | audioOut => "aout"

/-- A wish for a label: a role, with the number of the signal unless there is only one. -/
structure LabelRequest where
  role : Role
  index : Option Nat
deriving DecidableEq

/-- A signal of a graph (`StreamLabel`). `copy` counts the earlier labels of the same request. -/
inductive Label where
  | pad (input : Nat) (track : Track)
  | signal (request : LabelRequest) (copy : Nat)
deriving DecidableEq

namespace Label

def ofVideo (input : Nat) : Label := pad input .video

def ofAudio (input : Nat) : Label := pad input .audio

/-- The label as text: `3:v` and `3:a` for pads, role and number for signals, with the count of
earlier copies behind an underscore. -/
def text : Label → String
  | pad input .video => toString input ++ ":v"
  | pad input .audio => toString input ++ ":a"
  | signal ⟨role, index⟩ copy =>
    role.name ++ (match index with | some i => toString i | none => "") ++
      (if copy = 0 then "" else "_" ++ toString copy)

/-- The label as it stands in graphs and in stream maps (`StreamLabel.bracketed`). -/
def bracketed (label : Label) : String := "[" ++ label.text ++ "]"

def isPad : Label → Bool
  | pad .. => true
  | signal .. => false

/-- The input file of a pad. -/
def input? : Label → Option Nat
  | pad input _ => some input
  | signal .. => none

/-- Whether a text is that of a pad (`StreamLabel.is_input_pad`): only pads have a colon. -/
def isPadText (text : String) : Bool := text.toList.contains ':'

/-- A number of 64 bits from its digits, with or without a plus. -/
def word? (digits : List Char) : Option Nat :=
  let digits := if digits.head? = some '+' then digits.tail else digits
  let value := Nat.ofDigitChars 10 digits 0
  if digits ≠ [] ∧ digits.all Char.isDigit ∧ value < twoTo 64 then some value else none

/-- The input file of a pad from its text (`StreamLabel.input_index`): the number in front of the
first colon. -/
def inputOfText? (text : String) : Option Nat :=
  if isPadText text then word? (text.toList.takeWhile (· != ':')) else none

end Label

/-- The requests answered so far. -/
structure LabelPool where
  issued : List LabelRequest := []

namespace LabelPool

/-- Answers a request (`LabelAllocator.allocate`): the label counts the earlier answers to the same
request. -/
def take (request : LabelRequest) (pool : LabelPool) : Label × LabelPool :=
  (.signal request (pool.issued.count request), ⟨request :: pool.issued⟩)

/-- The number of labels handed out. -/
def size (pool : LabelPool) : Nat := pool.issued.length

/-- Answers requests in order. -/
def takeAll : List LabelRequest → LabelPool → List Label × LabelPool
  | [], pool => ([], pool)
  | request :: rest, pool =>
    let (label, pool) := pool.take request
    let (labels, pool) := takeAll rest pool
    (label :: labels, pool)

/-- The label of a request is new to the pool. -/
theorem size_take (request : LabelRequest) (pool : LabelPool) :
    (pool.take request).2.size = pool.size + 1 := rfl

end LabelPool

/-- The name that a request asks for: its role and its number. -/
def LabelRequest.name (request : LabelRequest) : String :=
  request.role.name ++ (match request.index with | some i => toString i | none => "")

/-- What is written behind a base that was tried `copy` times before. -/
def copySuffix (copy : Nat) : String := if copy = 0 then "" else "_" ++ toString copy

/-- The number that a name has as the suffix of a base. -/
def suffixOf (base name : String) : Nat :=
  Nat.ofDigitChars 10 (name.toList.drop (base.length + 1)) 0

theorem suffixOf_append_copySuffix (base : String) (copy : Nat) :
    suffixOf base (base ++ copySuffix copy) = copy := by
  unfold suffixOf copySuffix
  rw [String.toList_append, ← String.length_toList, List.drop_length_add_append]
  split
  · next h =>
    rw [h]
    rfl
  · simp [Nat.ofDigitChars_ten_toDigits]

/-- The names handed out so far (`LabelAllocator`). -/
structure NameSupply where
  issued : List String := []

namespace NameSupply

/-- The greatest suffix of a base among names. -/
def lastSuffix (issued : List String) (base : String) : Nat :=
  (issued.map (suffixOf base)).max?.getD 0

/-- A name that is taken has no greater suffix than the last. -/
theorem le_lastSuffix {issued : List String} {base : String} {copy : Nat}
    (h : base ++ copySuffix copy ∈ issued) : copy ≤ lastSuffix issued base := by
  refine List.le_max?_getD_of_mem (List.mem_map.mpr ⟨_, h, ?_⟩)
  exact suffixOf_append_copySuffix base copy

/-- Tries a base with one suffix after the other until the name is free. Every try comes closer to
the last suffix among the names, and behind it all are free. -/
def search (issued : List String) (base : String) (copy : Nat) : String :=
  if base ++ copySuffix copy ∈ issued then search issued base (copy + 1)
  else base ++ copySuffix copy
termination_by lastSuffix issued base + 1 - copy
decreasing_by
  next h =>
    have hle := le_lastSuffix h
    omega

/-- Hands out a base, or the first of its suffixed names that is free (`LabelAllocator.reserve`). -/
def reserve (base : String) (supply : NameSupply) : String × NameSupply :=
  let name := search supply.issued base 0
  (name, ⟨name :: supply.issued⟩)

/-- Answers requests in order. -/
def reserveAll : List LabelRequest → NameSupply → List String × NameSupply
  | [], supply => ([], supply)
  | request :: rest, supply =>
    let (name, supply) := supply.reserve request.name
    let (names, supply) := reserveAll rest supply
    (name :: names, supply)

/-- The number of names handed out. -/
def size (supply : NameSupply) : Nat := supply.issued.length

end NameSupply

end Montage.Graph
