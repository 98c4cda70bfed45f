import Instro.Library.Grouping
import Instro.Modbus.Types
import Mathlib.Data.List.Sort

/-!
# The checks of a whole configuration

`model_post_init` checks what the registers have in common: their names, their addresses, and their
read groups. The registers of a group follow each other in the address space without overlap, and
fit in one read.
-/

namespace Instro.Modbus

open Instro.Library

/-- Max registers per FC03/FC04 read. -/
def maxRegistersPerRead : Nat := 125

/-- Max coils or discrete inputs per FC01/FC02 read. -/
def maxCoilsPerRead : Nat := 2000

/-- `register_type in ("coil", "discrete")` -/
def RegisterType.isBit : RegisterType → Bool
  | .coil | .discrete => true
  | .holding | .input => false

/-- The limit of one read. -/
def RegisterType.maxPerRead (registerType : RegisterType) : Nat :=
  if registerType.isBit then maxCoilsPerRead else maxRegistersPerRead

/-- The addresses a register takes up: a bit takes one, whatever its data type. -/
def RegisterDef.addressCount (reg : RegisterDef) : Nat :=
  if reg.registerType.isBit then 1 else reg.registerCount

/-- Why a configuration is refused whose registers are each accepted. -/
inductive LayoutError
  | duplicateRegisterNames (names : List String)
  | bitmapNames (e : ConfigError)
  | overlap (registerType : RegisterType) (name1 : String) (start1 end1 : Nat) (name2 : String)
      (start2 end2 : Nat)
  | notPolled (name group : String)
  | mixedTypes (group : String) (first second : RegisterType)
  | groupSpan (group : String) (span start end' limit : Nat)
  | interpreter (e : PyException)

/-- `regs.sort(key=lambda r: r.starting_address)` -/
def sortByAddress (regs : List RegisterDef) : List RegisterDef :=
  regs.insertionSort fun reg1 reg2 => reg1.startingAddress ≤ reg2.startingAddress

/-- Each register against those after it. -/
def checkOverlap : List RegisterDef → Except LayoutError Unit
  | [] => .ok ()
  | reg1 :: regs => do
    let start1 := reg1.startingAddress.val
    let end1 := start1 + reg1.addressCount - 1
    regs.forM fun reg2 =>
      let start2 := reg2.startingAddress.val
      let end2 := start2 + reg2.addressCount - 1
      ensure (¬(start1 ≤ end2 ∧ start2 ≤ end1))
        (.overlap reg1.registerType reg1.name start1 end1 reg2.name start2 end2)
    checkOverlap regs

/-- `groups`: the type of the first register of each group so far. -/
def checkGroupTypes (groups : List (String × RegisterType)) :
    List RegisterDef → Except LayoutError Unit
  | [] => .ok ()
  | reg :: regs =>
    match reg.readGroup with
    | none => checkGroupTypes groups regs
    | some group => do
      ensure (reg.poll = true) (.notPolled reg.name group)
      match groups.lookup group with
      | some first => do
        ensure (first = reg.registerType) (.mixedTypes group first reg.registerType)
        checkGroupTypes groups regs
      | none => checkGroupTypes ((group, reg.registerType) :: groups) regs

/-- How many items a read from the first register to the last asks for. The first has the least
address. -/
def groupSpan (first last : RegisterDef) : Nat :=
  if first.registerType.isBit then last.startingAddress.val + 1 - first.startingAddress.val
  else last.startingAddress.val + last.registerCount - first.startingAddress.val

def checkGroupSpan (group : String) (regs : List RegisterDef) : Except LayoutError Unit :=
  match regs.head?, regs.getLast? with
  | some first, some last =>
    let end' := if first.registerType.isBit then last.startingAddress.val
      else last.startingAddress.val + last.registerCount - 1
    ensure (groupSpan first last ≤ first.registerType.maxPerRead)
      (.groupSpan group (groupSpan first last) first.startingAddress end'
        first.registerType.maxPerRead)
  | _, _ => .error (.interpreter .indexError)

namespace ModbusConfig

variable (config : ModbusConfig)

def validateUniqueRegisterNames : Except LayoutError Unit :=
  let names := config.registers.map (·.name)
  ensure names.Nodup
    (.duplicateRegisterNames ((names.filter (1 < names.count ·)).dedup.mergeSort (· ≤ ·)))

def validateNoRegisterOverlap : Except LayoutError Unit :=
  (groupBy (fun reg => some reg.registerType) config.registers).forM fun (_, regs) =>
    checkOverlap (sortByAddress regs)

def validateGroupRegisterTypes : Except LayoutError Unit := checkGroupTypes [] config.registers

/-- `_group_index`: the registers of each read group, by address. -/
def groupIndex : List (String × List RegisterDef) :=
  (groupBy (·.readGroup) config.registers).map fun (group, regs) => (group, sortByAddress regs)

def validateGroupSpan : Except LayoutError Unit :=
  config.groupIndex.forM fun (group, regs) => checkGroupSpan group regs

def getGroup (group : String) : Except PyException (List RegisterDef) :=
  match config.groupIndex.lookup group with
  | some regs => .ok regs
  | none => .error .keyError

/-- Cross-register validation: uniqueness, overlap, groups. -/
def modelPostInit : Except LayoutError Unit := do
  config.validateUniqueRegisterNames
  raiseAs .bitmapNames config.validateUniqueBitmapNames
  config.validateNoRegisterOverlap
  config.validateGroupRegisterTypes
  config.validateGroupSpan

/-- The configuration validates. -/
structure Validates (fl : Rounding) : Prop where
  registers : ∀ reg ∈ config.registers, reg.Accepted fl
  postInit : config.modelPostInit = .ok ()

end ModbusConfig

end Instro.Modbus
