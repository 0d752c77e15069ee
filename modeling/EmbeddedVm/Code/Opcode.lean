/-!
# Operation codes

Every instruction starts with one byte. The codes fall into families by what follows the byte: the
`SimpleOp`s stand alone, a `Jump` has a relative offset, a `Callback` intrinsic names a function,
and the remaining few have operands of their own. The byte decides everything else: the size of the
operands, the printed name, whether control can continue behind it.
-/

namespace EmbeddedVm

/-! ## 1. Families -/

/-- Arithmetic on two integers. -/
inductive IntOp where
  | add | sub | mul | div | mod
deriving DecidableEq, Repr, Inhabited

/-- Arithmetic on two floats. -/
inductive FloatOp where
  | add | sub | mul | div
deriving DecidableEq, Repr, Inhabited

/-- Order comparisons. -/
inductive Comparison where
  | lt | le | gt | ge
deriving DecidableEq, Repr, Inhabited

/-- Operations without operands. -/
inductive SimpleOp where
  | nop
  | pop
  | dup
  | pushNull
  | pushBool (value : Bool)
  | int (op : IntOp)
  | intNeg
  | float (op : FloatOp)
  | floatNeg
  | toFloat
  | toInt
  | eq
  | ne
  | compare (op : Comparison)
  | not
  | concat
  | ret
  | retVoid
  | throw
  | timerCancel
deriving DecidableEq, Repr, Inhabited

/-- When a jump is taken. -/
inductive Jump where
  | always
  | ifFalse
  | ifTrue
deriving DecidableEq, Repr, Inhabited

/-- Operations that hand a function to the scheduler or to the reader of files. -/
inductive Callback where
  | timerOnce
  | timerEvery
  | mainLoop
  | asyncRead
deriving DecidableEq, Repr, Inhabited

/-- An operation code. -/
inductive Opcode where
  | simple (op : SimpleOp)
  | pushInt
  | pushFloat
  | pushString
  | loadLocal
  | storeLocal
  | loadStatic
  | storeStatic
  | jump (kind : Jump)
  | call
  | callNative
  | callback (kind : Callback)
deriving DecidableEq, Repr, Inhabited

namespace Opcode

/-! ## 2. Bytes -/

/-- The byte of an operation code. -/
def toByte : Opcode → UInt8
  | simple .nop => 0x00
  | simple .pop => 0x01
  | simple .dup => 0x02
  | simple .pushNull => 0x10
  | simple (.pushBool true) => 0x11
  | simple (.pushBool false) => 0x12
  | pushInt => 0x13
  | pushFloat => 0x14
  | pushString => 0x15
  | loadLocal => 0x20
  | storeLocal => 0x21
  | loadStatic => 0x22
  | storeStatic => 0x23
  | simple (.int .add) => 0x30
  | simple (.int .sub) => 0x31
  | simple (.int .mul) => 0x32
  | simple (.int .div) => 0x33
  | simple (.int .mod) => 0x34
  | simple .intNeg => 0x35
  | simple (.float .add) => 0x38
  | simple (.float .sub) => 0x39
  | simple (.float .mul) => 0x3A
  | simple (.float .div) => 0x3B
  | simple .floatNeg => 0x3C
  | simple .toFloat => 0x3D
  | simple .toInt => 0x3E
  | simple .eq => 0x40
  | simple .ne => 0x41
  | simple (.compare .lt) => 0x42
  | simple (.compare .le) => 0x43
  | simple (.compare .gt) => 0x44
  | simple (.compare .ge) => 0x45
  | simple .not => 0x46
  | simple .concat => 0x48
  | jump .always => 0x50
  | jump .ifFalse => 0x51
  | jump .ifTrue => 0x52
  | call => 0x60
  | callNative => 0x61
  | simple .ret => 0x62
  | simple .retVoid => 0x63
  | simple .throw => 0x64
  | callback .timerOnce => 0x70
  | callback .timerEvery => 0x71
  | simple .timerCancel => 0x72
  | callback .mainLoop => 0x73
  | callback .asyncRead => 0x78

/-- Every operation code, by ascending byte. -/
def all : List Opcode :=
  [simple .nop, simple .pop, simple .dup,
   simple .pushNull, simple (.pushBool true), simple (.pushBool false),
   pushInt, pushFloat, pushString,
   loadLocal, storeLocal, loadStatic, storeStatic,
   simple (.int .add), simple (.int .sub), simple (.int .mul), simple (.int .div),
   simple (.int .mod), simple .intNeg,
   simple (.float .add), simple (.float .sub), simple (.float .mul), simple (.float .div),
   simple .floatNeg, simple .toFloat, simple .toInt,
   simple .eq, simple .ne, simple (.compare .lt), simple (.compare .le),
   simple (.compare .gt), simple (.compare .ge), simple .not, simple .concat,
   jump .always, jump .ifFalse, jump .ifTrue,
   call, callNative, simple .ret, simple .retVoid, simple .throw,
   callback .timerOnce, callback .timerEvery, simple .timerCancel, callback .mainLoop,
   callback .asyncRead]

/-- The operation code of a byte, if it is one. -/
def ofByte? (b : UInt8) : Option Opcode := all.find? (·.toByte == b)

/-- The list leaves no operation code out. -/
theorem mem_all (op : Opcode) : op ∈ all := by
  rcases op with (_ | _ | _ | _ | ⟨_ | _⟩ | ⟨_ | _⟩ | _ | ⟨_ | _⟩ | _ | _ | _ | _ | _ | ⟨_ | _⟩ |
    _ | _ | _ | _ | _ | _) | _ | _ | _ | _ | _ | _ | _ | ⟨_ | _⟩ | _ | _ | ⟨_ | _⟩ <;> decide

/-- Different operation codes have different bytes. -/
theorem toByte_injective {a b : Opcode} (h : a.toByte = b.toByte) : a = b := by
  have key : ∀ x ∈ all, ∀ y ∈ all, x.toByte = y.toByte → x = y := by decide +kernel
  exact key a (mem_all a) b (mem_all b) h

/-! ## 3. What a code says about its instruction -/

/-- The number of operand bytes behind the code. -/
def operandSize : Opcode → Nat
  | simple _ => 0
  | pushInt => 4
  | pushFloat => 8
  | pushString => 4
  | loadLocal => 2
  | storeLocal => 2
  | loadStatic => 6
  | storeStatic => 6
  | jump _ => 4
  | call => 4
  | callNative => 3
  | callback _ => 4

/-- Control never continues with the next instruction. -/
def isTerminator : Opcode → Bool
  | jump .always => true
  | simple .ret => true
  | simple .retVoid => true
  | simple .throw => true
  | _ => false

/-- The instruction talks to the cooperative scheduler. -/
def isCooperative : Opcode → Bool
  | callback .timerOnce => true
  | callback .timerEvery => true
  | callback .mainLoop => true
  | simple .timerCancel => true
  | _ => false

def name : Opcode → String
  | simple .nop => "NOP"
  | simple .pop => "POP"
  | simple .dup => "DUP"
  | simple .pushNull => "CONST_NULL"
  | simple (.pushBool true) => "CONST_TRUE"
  | simple (.pushBool false) => "CONST_FALSE"
  | pushInt => "CONST_I32"
  | pushFloat => "CONST_F64"
  | pushString => "CONST_STR"
  | loadLocal => "LOAD_LOCAL"
  | storeLocal => "STORE_LOCAL"
  | loadStatic => "LOAD_STATIC"
  | storeStatic => "STORE_STATIC"
  | simple (.int .add) => "IADD"
  | simple (.int .sub) => "ISUB"
  | simple (.int .mul) => "IMUL"
  | simple (.int .div) => "IDIV"
  | simple (.int .mod) => "IMOD"
  | simple .intNeg => "INEG"
  | simple (.float .add) => "FADD"
  | simple (.float .sub) => "FSUB"
  | simple (.float .mul) => "FMUL"
  | simple (.float .div) => "FDIV"
  | simple .floatNeg => "FNEG"
  | simple .toFloat => "TO_F64"
  | simple .toInt => "TO_I32"
  | simple .eq => "EQ"
  | simple .ne => "NE"
  | simple (.compare .lt) => "LT"
  | simple (.compare .le) => "LE"
  | simple (.compare .gt) => "GT"
  | simple (.compare .ge) => "GE"
  | simple .not => "NOT"
  | simple .concat => "CONCAT"
  | jump .always => "JMP"
  | jump .ifFalse => "JMP_IF_FALSE"
  | jump .ifTrue => "JMP_IF_TRUE"
  | call => "CALL"
  | callNative => "CALL_NATIVE"
  | simple .ret => "RETURN"
  | simple .retVoid => "RETURN_VOID"
  | simple .throw => "THROW"
  | callback .timerOnce => "TIMER_ADD"
  | callback .timerEvery => "TIMER_EVERY"
  | simple .timerCancel => "TIMER_CANCEL"
  | callback .mainLoop => "MAIN_LOOP_ADD"
  | callback .asyncRead => "ASYNC_READ"

/-- The operation code with a printed name. -/
def ofName? (s : String) : Option Opcode := all.find? (·.name == s)

end Opcode

end EmbeddedVm
