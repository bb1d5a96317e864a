/-! calculator_server.c: the procedure that computes a result, in a static
object that `calculator_prog_1` then encodes. -/

namespace OsLabs.Calculator

universe u

/-- The operations on `float` that the server uses, kept abstract. -/
structure Arithmetic (Num : Type u) where
  add : Num → Num → Num
  sub : Num → Num → Num
  mul : Num → Num → Num
  div : Num → Num → Num
  fabs : Num → Num
  less : Num → Num → Bool
  /-- 0.0 -/
  zero : Num
  /-- 0.000001 -/
  tiny : Num

def ADD : Int := 0

def SUB : Int := 1

def MUL : Int := 2

def DIV : Int := 3

structure CALCULATOR (Num : Type u) where
  op : Int
  arg1 : Num
  arg2 : Num
  result : Num
deriving DecidableEq

variable {Num : Type u}

/-- What `memset` to 0 leaves. -/
def CALCULATOR.zeroed (arith : Arithmetic Num) : CALCULATOR Num :=
  ⟨0, arith.zero, arith.zero, arith.zero⟩

/-- The value that the `switch` stores into `result.result`. -/
def outcome (arith : Arithmetic Num) (argp : CALCULATOR Num) : Num :=
  if argp.op = ADD then arith.add argp.arg1 argp.arg2
  else if argp.op = SUB then arith.sub argp.arg1 argp.arg2
  else if argp.op = MUL then arith.mul argp.arg1 argp.arg2
  else if argp.op = DIV then
    if arith.less (arith.fabs argp.arg2) arith.tiny then arith.zero
    else arith.div argp.arg1 argp.arg2
  else arith.zero

/-- `calculator_proc_1_svc`, from the static `result` as the last call has left
it to the one that is returned. -/
def calculatorProc1Svc (arith : Arithmetic Num) (argp result : CALCULATOR Num) :
    CALCULATOR Num :=
  let result := { result with result := outcome arith argp }
  { result with op := argp.op, arg1 := argp.arg1, arg2 := argp.arg2 }

/-- Nothing of an earlier call is left in the object that is returned. -/
theorem calculatorProc1Svc_static (arith : Arithmetic Num) (argp result other : CALCULATOR Num) :
    calculatorProc1Svc arith argp result = calculatorProc1Svc arith argp other := rfl

end OsLabs.Calculator
