import Confine.Fault

/-! # The constructors of an executable

The dynamic section of an executable says which functions run before its `main`: one initial
function and an array of others. A start routine that is given an init function leaves them alone,
so they are called from here, in the order that the section implies.
-/

namespace Confine

/-- The arguments that program code is entered with. The last two are addresses of vectors. -/
structure Arguments where
  count : Int
  vector : Nat
  environment : Nat
  deriving Repr, DecidableEq

/-- An entry of a dynamic section. -/
structure DynamicEntry where
  tag : Nat
  value : Nat
  deriving Repr, DecidableEq

/-- Where the constructors of a loaded executable are. -/
structure Constructors where
  /-- The address of the initial function. -/
  init : Option Nat
  /-- The address of the array of further functions, or zero. -/
  array : Nat
  /-- The number of words in the array. -/
  len : Nat
  deriving Repr, DecidableEq

/-- From where a constructor is called. -/
inductive ConstructorSite where
  | init
  | array
  deriving Repr, DecidableEq

/-- One call of a constructor. -/
structure ConstructorCall where
  site : ConstructorSite
  address : Nat
  arguments : Arguments
  deriving Repr, DecidableEq

namespace DynamicEntry

/-- The tag that ends a dynamic section. -/
def nullTag : Nat := 0
/-- The tag of the initial function. -/
def initTag : Nat := 12
/-- The tag of the array of further functions. -/
def initArrayTag : Nat := 25
/-- The tag of the size of that array in bytes. -/
def initArraySizeTag : Nat := 27

end DynamicEntry

namespace Constructors

/-- No constructors. -/
def empty : Constructors :=
  ⟨none, 0, 0⟩

/-- Take an entry into account. Addresses are relative to where the executable was loaded. -/
def record (bias : Nat) (c : Constructors) (entry : DynamicEntry) : Except Panic Constructors := do
  if entry.tag = DynamicEntry.initTag then
    return { c with init := some (← Word.add bias entry.value) }
  else if entry.tag = DynamicEntry.initArrayTag then
    return { c with array := ← Word.add bias entry.value }
  else if entry.tag = DynamicEntry.initArraySizeTag then
    return { c with len := entry.value / 8 }
  else return c

/-- The constructors that a dynamic section lists before the entry that ends it. -/
def ofDynamic (bias : Nat) (entries : List DynamicEntry) : Except Panic Constructors := do
  let listed := entries.takeWhile (·.tag ≠ DynamicEntry.nullTag)
  let c ← listed.foldlM (record bias) empty
  return if c.array = 0 then { c with len := 0 } else c

/-- Whether a word of the array is no address: some tools leave such words as placeholders. -/
def isPlaceholder (word : Nat) : Bool :=
  word = 0 || word = Word.max

/-- The calls that run the constructors, given the words found at the array. -/
def calls (c : Constructors) (words : List Nat) (arguments : Arguments) : List ConstructorCall :=
  c.init.toList.map (⟨.init, ·, arguments⟩) ++
    ((words.take c.len).filter (!isPlaceholder ·)).map (⟨.array, ·, arguments⟩)

end Constructors

namespace ConstructorCall

/-- What the log says before the call. -/
def message (call : ConstructorCall) : String :=
  match call.site with
  | .init => s!"Calling DT_INIT at {Text.hex call.address}"
  | .array => s!"Calling constructor at {Text.hex call.address}"

end ConstructorCall

end Confine
