import RtcBase.Library.Interleaving

/-! `Optional`, whose value lives in a union and is constructed and destroyed by hand. Touching a
value that is not there, constructing over one, and touching poisoned memory are undefined and have
no result.
-/

namespace RtcBase.Optionals

variable {α θ : Type}

/-- What moving does to the source of a move, and moving a value to itself. -/
structure Moves (α : Type) where
  movedFrom : α → α
  selfMoved : α → α

/-- The memory of an `Optional`: whether an object is there, its flag, the value that lives in the
union, whether sanitizers were told not to touch it, and how many values were ever constructed and
destroyed in it.
-/
structure Storage (α : Type) where
  alive : Bool
  hasValue : Bool
  value : Option α
  poisoned : Bool
  constructed : Nat
  destroyed : Nat
  deriving DecidableEq, Repr

namespace Storage

/-- Memory that no `Optional` was ever in, with any byte at the place of the flag. -/
def fresh (flag : Bool) : Storage α where
  alive := false
  hasValue := flag
  value := none
  poisoned := false
  constructed := 0
  destroyed := 0

/-- `new (&_value) T(...)`. -/
def newValue (storage : Storage α) (value : α) : Option (Storage α) :=
  if storage.value.isNone ∧ !storage.poisoned then
    some { storage with value := some value, constructed := storage.constructed + 1 }
  else none

/-- `_value.~T()`. -/
def destroyValue (storage : Storage α) : Option (Storage α) :=
  if storage.value.isSome ∧ !storage.poisoned then
    some { storage with value := none, destroyed := storage.destroyed + 1 }
  else none

/-- A use of `_value`. -/
def readValue (storage : Storage α) : Option α :=
  if storage.poisoned then none else storage.value

/-- An assignment to `_value`, or what a move leaves in it. -/
def setValue (storage : Storage α) (value : α) : Option (Storage α) :=
  if storage.value.isSome ∧ !storage.poisoned then some { storage with value := some value }
  else none

def setHasValue (storage : Storage α) (hasValue : Bool) : Storage α :=
  { storage with hasValue := hasValue }

/-- `Optional::poison_value`. -/
def poisonValue (storage : Storage α) : Storage α := { storage with poisoned := true }

/-- `Optional::unpoison_value`. -/
def unpoisonValue (storage : Storage α) : Storage α := { storage with poisoned := false }

/-- `Optional()` and `Optional(nullopt_t)`. -/
def construct (storage : Storage α) : Storage α :=
  ({ storage with alive := true }.setHasValue false).poisonValue

/-- `Optional(const T&)` and `Optional(T&&)`. -/
def constructValue (storage : Storage α) (value : α) : Option (Storage α) :=
  ({ storage with alive := true }.setHasValue true).newValue value

/-- `~Optional`. -/
def destroy (storage : Storage α) : Option (Storage α) := do
  let storage ← if storage.hasValue then storage.destroyValue else some storage.unpoisonValue
  return { storage with alive := false }

/-- `Optional::reset` and `operator=(nullopt_t)`. -/
def reset (storage : Storage α) : Option (Storage α) :=
  if !storage.hasValue then some storage
  else do
    let storage ← storage.destroyValue
    return (storage.setHasValue false).poisonValue

/-- `Optional::emplace`, with the value that its arguments construct. -/
def emplace (storage : Storage α) (value : α) : Option (Storage α) := do
  let storage ← if storage.hasValue then storage.destroyValue else some storage.unpoisonValue
  let storage ← storage.newValue value
  return storage.setHasValue true

/-- The part of the assignments and of `swap` that fills an empty `Optional`. -/
def fill (storage : Storage α) (value : α) : Option (Storage α) := do
  let storage ← storage.unpoisonValue.newValue value
  return storage.setHasValue true

/-- The part of the assignments that stores a value: T's assignment where there is one already. -/
def assign (storage : Storage α) (value : α) : Option (Storage α) :=
  if storage.hasValue then storage.setValue value else storage.fill value

/-- The part of `swap` that empties an `Optional` whose value was moved away. -/
def vacate (storage : Storage α) : Option (Storage α) := do
  let storage ← storage.destroyValue
  return (storage.setHasValue false).poisonValue

/-- `Optional::value_or`. -/
def valueOr (storage : Storage α) (defaultVal : α) : Option α :=
  if storage.hasValue then storage.readValue else some defaultVal

/-- `operator->`: `NULL`, or a pointer, which stands for the value behind it. -/
def pointer (storage : Storage α) : Option (Option α) :=
  if !storage.hasValue then some none
  else do return some (← storage.readValue)

section Comparisons

variable [BEq α]

/-- `operator==` of two `Optional`s. -/
def equal (m1 m2 : Storage α) : Option Bool :=
  if m1.hasValue && m2.hasValue then do return (← m1.readValue) == (← m2.readValue)
  else some (m1.hasValue == m2.hasValue)

/-- `operator==(const Optional&, const T&)`. -/
def equalValue (opt : Storage α) (value : α) : Option Bool :=
  if opt.hasValue then do return (← opt.readValue) == value else some false

/-- `operator==(const T&, const Optional&)`. -/
def valueEqual (value : α) (opt : Storage α) : Option Bool :=
  if opt.hasValue then do return value == (← opt.readValue) else some false

/-- `operator==` with `nullopt`, on either side. -/
def equalNullopt (opt : Storage α) : Bool := !opt.hasValue

/-- `operator!=` of two `Optional`s. -/
def notEqual (m1 m2 : Storage α) : Option Bool :=
  if m1.hasValue && m2.hasValue then do return (← m1.readValue) != (← m2.readValue)
  else some (m1.hasValue != m2.hasValue)

/-- `operator!=(const Optional&, const T&)`. -/
def notEqualValue (opt : Storage α) (value : α) : Option Bool :=
  if !opt.hasValue then some true else do return (← opt.readValue) != value

/-- `operator!=(const T&, const Optional&)`. -/
def valueNotEqual (value : α) (opt : Storage α) : Option Bool :=
  if !opt.hasValue then some true else do return value != (← opt.readValue)

/-- `operator!=` with `nullopt`, on either side. -/
def notEqualNullopt (opt : Storage α) : Bool := opt.hasValue

end Comparisons

end Storage

/-- The memory of all `Optional`s. -/
abbrev Memory (θ α : Type) := θ → Storage α

/-- What an `Optional` answers. -/
inductive Answer (α : Type) where
  | flag (value : Bool)
  | value (value : α)
  | pointer (value : Option α)
  deriving DecidableEq, Repr

/-- What a comparison is made of, as the overloads of `operator==` and `operator!=` have it. -/
inductive Operands (θ α : Type) where
  | optionals (m1 m2 : θ)
  | optionalAndValue (opt : θ) (value : α)
  | valueAndOptional (value : α) (opt : θ)
  | nullopt (opt : θ)

/-- The calls that a program makes. -/
inductive Call (θ α : Type) where
  | construct (place : θ)
  | constructValue (place : θ) (value : α)
  | constructCopy (place m : θ)
  | constructMove (place m : θ)
  | destroy (place : θ)
  | reset (place : θ)
  | assignCopy (place m : θ)
  | assignMove (place m : θ)
  | swap (m1 m2 : θ)
  | emplace (place : θ) (value : α)
  | hasValue (place : θ)
  | value (place : θ)
  | assignValue (place : θ) (value : α)
  | moveValue (place : θ)
  | valueOr (place : θ) (defaultVal : α)
  | pointer (place : θ)
  | equal (operands : Operands θ α)
  | notEqual (operands : Operands θ α)

section Calls

variable [DecidableEq θ] [BEq α] (moves : Moves α)

/-- `Optional(const Optional&)`. -/
def constructCopy (memory : Memory θ α) (place m : θ) : Option (Memory θ α) :=
  let self := { memory place with alive := true }.setHasValue (memory m).hasValue
  if self.hasValue then do
    let self ← self.newValue (← (memory m).readValue)
    return Function.update memory place self
  else return Function.update memory place self.poisonValue

/-- `Optional(Optional&&)`. -/
def constructMove (memory : Memory θ α) (place m : θ) : Option (Memory θ α) :=
  let self := { memory place with alive := true }.setHasValue (memory m).hasValue
  if self.hasValue then do
    let value ← (memory m).readValue
    let self ← self.newValue value
    let source ← (memory m).setValue (moves.movedFrom value)
    return Function.update (Function.update memory place self) m source
  else return Function.update memory place self.poisonValue

/-- `operator=(const Optional&)`. -/
def assignCopy (memory : Memory θ α) (place m : θ) : Option (Memory θ α) :=
  if (memory m).hasValue then do
    let value ← (memory m).readValue
    let self ← (memory place).assign value
    return Function.update memory place self
  else do
    let self ← (memory place).reset
    return Function.update memory place self

/-- `operator=(Optional&&)`. -/
def assignMove (memory : Memory θ α) (place m : θ) : Option (Memory θ α) :=
  if (memory m).hasValue then do
    let value ← (memory m).readValue
    if place = m then
      let self ← (memory place).setValue (moves.selfMoved value)
      return Function.update memory place self
    else
      let self ← (memory place).assign value
      let source ← (memory m).setValue (moves.movedFrom value)
      return Function.update (Function.update memory place self) m source
  else do
    let self ← (memory place).reset
    return Function.update memory place self

/-- The case of `swap` where the first one has a value and the second one has none. -/
def swapInto (memory : Memory θ α) (m1 m2 : θ) : Option (Memory θ α) := do
  let value ← (memory m1).readValue
  let second ← (memory m2).fill value
  let first ← (memory m1).setValue (moves.movedFrom value)
  let first ← first.vacate
  return Function.update (Function.update memory m2 second) m1 first

/-- `swap`, where swapping two values exchanges them. -/
def swap (memory : Memory θ α) (m1 m2 : θ) : Option (Memory θ α) :=
  if (memory m1).hasValue then
    if (memory m2).hasValue then do
      let value1 ← (memory m1).readValue
      let value2 ← (memory m2).readValue
      let memory := Function.update memory m1 (← (memory m1).setValue value2)
      return Function.update memory m2 (← (memory m2).setValue value1)
    else swapInto moves memory m1 m2
  else if (memory m2).hasValue then swapInto moves memory m2 m1
  else some memory

/-- `operator==`. -/
def Memory.equal (memory : Memory θ α) : Operands θ α → Option Bool
  | .optionals m1 m2 => (memory m1).equal (memory m2)
  | .optionalAndValue opt value => (memory opt).equalValue value
  | .valueAndOptional value opt => (memory opt).valueEqual value
  | .nullopt opt => some (memory opt).equalNullopt

/-- `operator!=`, where that of `T` is the negation of its `operator==`. -/
def Memory.notEqual (memory : Memory θ α) : Operands θ α → Option Bool
  | .optionals m1 m2 => (memory m1).notEqual (memory m2)
  | .optionalAndValue opt value => (memory opt).notEqualValue value
  | .valueAndOptional value opt => (memory opt).valueNotEqual value
  | .nullopt opt => some (memory opt).notEqualNullopt

/-- What a call does, with what it answers. -/
def Memory.step (memory : Memory θ α) : Call θ α → Option (Memory θ α × List (Answer α))
  | .construct place => some (Function.update memory place (memory place).construct, [])
  | .constructValue place value => do
      return (Function.update memory place (← (memory place).constructValue value), [])
  | .constructCopy place m => do return (← constructCopy memory place m, [])
  | .constructMove place m => do return (← constructMove moves memory place m, [])
  | .destroy place => do return (Function.update memory place (← (memory place).destroy), [])
  | .reset place => do return (Function.update memory place (← (memory place).reset), [])
  | .assignCopy place m => do return (← assignCopy memory place m, [])
  | .assignMove place m => do return (← assignMove moves memory place m, [])
  | .swap m1 m2 => do return (← swap moves memory m1 m2, [])
  | .emplace place value => do
      return (Function.update memory place (← (memory place).emplace value), [])
  | .hasValue place => some (memory, [.flag (memory place).hasValue])
  | .value place => do return (memory, [.value (← (memory place).readValue)])
  | .assignValue place value => do
      return (Function.update memory place (← (memory place).setValue value), [])
  | .moveValue place => do
      let value ← (memory place).readValue
      let source ← (memory place).setValue (moves.movedFrom value)
      return (Function.update memory place source, [.value value])
  | .valueOr place defaultVal => do
      return (memory, [.value (← (memory place).valueOr defaultVal)])
  | .pointer place => do return (memory, [.pointer (← (memory place).pointer)])
  | .equal operands => do return (memory, [.flag (← memory.equal operands)])
  | .notEqual operands => do return (memory, [.flag (← memory.notEqual operands)])

end Calls

end RtcBase.Optionals
