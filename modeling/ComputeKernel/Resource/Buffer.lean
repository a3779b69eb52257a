import ComputeKernel.Data.Element
import ComputeKernel.Data.Size
import ComputeKernel.Data.Word

/-!
# Buffers

A structured buffer is an array of a fixed number of elements of one type. It lies in memory as one
flat array of words, `element.words` of them for each element in turn. The same words are seen in
two more ways: as elements (`get`, `set`, `elements`) and as bytes (`bytes`, `writeBytes`). A buffer
is only as large as a shared array can be.
-/

namespace ComputeKernel

/-- A structured buffer. -/
structure Buffer where
  element : Element
  /-- The number of elements. -/
  length : Nat
  words : Array UInt32
  size_words : words.size = length * element.words
  fits : length * element.stride ≤ Size.maxShared
deriving DecidableEq

namespace Buffer

variable (b : Buffer) (element : Element)
variable (i : Nat)

/-- A buffer with no elements. -/
def empty : Buffer where
  element := element
  length := 0
  words := #[]
  size_words := by simp
  fits := by simp

instance : Inhabited Buffer := ⟨empty .uint⟩

/-- A buffer of zeros. Its number of words must fit in 64 bits, and its bytes in a shared array. -/
def zeros? (length : Nat) : Except Fault Buffer :=
  if length * element.words < UInt64.size then
    if fits : length * element.stride ≤ Size.maxShared then
      .ok { element, length, words := Array.replicate (length * element.words) 0
            size_words := by simp, fits }
    else .error .sharedCapacity
  else .error .multiplication

/-- Give the element at a position other words. Nothing happens past the end. -/
def put (b : Buffer) (i : Nat) (value : List UInt32) : Buffer :=
  { b with
    words := overwrite b.words (i * b.element.words) (value.take b.element.words)
    size_words := by simp [b.size_words] }

/-- The words of the element at a position. -/
def elementAt : List UInt32 :=
  (b.words.extract (i * b.element.words) (i * b.element.words + b.element.words)).toList

/-- Refuse an element that the buffer does not have. -/
def checkIndex : Except Fault Unit :=
  if i < b.length then .ok () else .error (.index i b.length)

/-- Read an element. -/
def get : Except Fault (List UInt32) := (b.checkIndex i).map fun _ => b.elementAt i

/-- Write an element. -/
def set (value : List UInt32) : Except Fault Buffer :=
  (b.checkIndex i).map fun _ => b.put i value

/-- All elements in order. -/
def elements : List (List UInt32) := (List.range b.length).map b.elementAt

/-- Give the elements from a position on other words. -/
def putAll (b : Buffer) (i : Nat) : List (List UInt32) → Buffer
  | [] => b
  | v :: vs => putAll (b.put i v) (i + 1) vs

/-- Overwrite all elements. -/
def fill (values : List (List UInt32)) : Except Fault Buffer :=
  if values.length = b.length then .ok (b.putAll 0 values)
  else .error (.elementCount values.length b.length)

/-- A buffer of the given elements. -/
def ofElements? (values : List (List UInt32)) : Except Fault Buffer :=
  (zeros? element values.length).map (·.putAll 0 values)

/-- The bytes of the whole buffer. -/
def bytes : Bytes := Word.toBytes b.words.toList

/-- Overwrite the whole buffer by bytes. -/
def writeBytes (bytes : Bytes) : Except Fault Buffer :=
  if bytes.length = b.words.size * 4 then
    .ok { b with
      words := overwrite b.words 0 (Word.ofBytes bytes)
      size_words := by simp [b.size_words] }
  else .error (.byteCount bytes.length (b.words.size * 4))

/-- The number of bytes in an element. -/
def stride : Nat := b.element.stride

/-- The buffer as it is shown. -/
def text : String :=
  "[" ++ ", ".intercalate (b.elements.map b.element.valueText) ++ "]"

end Buffer

end ComputeKernel
