import ObjectDispatch.MemberText
import ObjectDispatch.Report

/-!
# Evaluation

Expressions are evaluated by recursion on their structure.  Only two things lead
out of an expression: entering a frame, to run the code of a member, and
consulting the class loader.  Both are arguments of `Expr.eval`, so that the
recursion through them can be bounded separately.

* Frames are bounded by the limit of the call stack.  `runCode` is granted a
  number of nested frames; with as many as the limit allows, the stack refuses a
  further frame before the grant is used up.
* Loader calls enter no frame, and nothing in the world bounds them.
  `evaluateLoading` is granted a number of nested loader calls, anew in each
  frame, and a run that needs more is exhausted.

## Main definitions

* `Expr.eval` — evaluation, given what leads out of expressions.
* `runCode`, `evaluateLoading` — the two bounded recursions.
* `evaluate` — evaluation of an expression in a world.
-/

namespace ObjectDispatch

/-! ### Operands -/

/-- An unsigned number of 64 bits from an integer. -/
def unsigned (n : Int64) : Nat := n.toUInt64.toNat

/-- The class that an operand means: that of the frame when it is left out, the
one with a number, or the one with a name. -/
def World.classOperand (w : World) : Option Value → Except DispatchError ClassId
  | none => do return (← w.context).1
  | some (.int n) => .ok ⟨unsigned n⟩
  | some v =>
      match w.findClass? v.text with
      | some id => .ok id
      | none => .error (.unknownClass v.text)

/-- The object that an operand means: that of the frame when it is left out, the
one with a number, or the one with a name. -/
def World.objectOperand (w : World) : Option Value → Except DispatchError ObjectId
  | none =>
      match w.stack.current?.bind (·.object) with
      | some o => .ok o
      | none => .error (.script .noObject)
  | some (.int n) => .ok ⟨unsigned n⟩
  | some v =>
      match w.findObject? v.text with
      | some o => .ok o
      | none => .error (.noSuchObject v.text)

/-- The object that an operand means where it may be left out. -/
def World.optionalObject (w : World) : Option Value → Except DispatchError (Option ObjectId)
  | none => .ok none
  | some v => do return some (← w.objectOperand (some v))

/-- The integer that an operand is. -/
def Value.toInteger (v : Value) : Except DispatchError Int64 :=
  match v.int? with
  | some n => .ok n
  | none => .error (.script (.notAnInteger v.text))

/-! ### Answers to questions -/

/-- The answer about the point that evaluation has reached. -/
def Inquiry.answer (w : World) : Inquiry → Except DispatchError Value
  | .frame => w.reportFrame
  | .context => w.reportContext
  | .depth => .ok (.ofNat w.stack.depth)
  | .objectCount => .ok (.ofNat w.objects.size)
  | .chainTarget => do return .ofString? ((← ObjectDispatch.chainTarget w).map (·.fullName))

/-- The answer about a name. -/
def NameInquiry.answer (w : World) (n : String) : NameInquiry → Value
  | .findClass => .ofOption ((w.findClass? n).map (·.value))
  | .findObject => .ofObject? (w.findObject? n)

/-- The answer about a class. -/
def ClassInquiry.answer (w : World) (id : ClassId) : ClassInquiry → Except DispatchError Value
  | .describe => w.reportClass id
  | .memberTexts => do return .list ((← w.classAt id).memberTexts.map .str)
  | .publicMethods => do return .list ((← w.classAt id).publicMethodNames.map .str)
  | .tables => w.reportTables id

/-- The answer about a name in a class. -/
def ClassNameInquiry.answer (w : World) (id : ClassId) (n : String) :
    ClassNameInquiry → Except DispatchError Value
  | .resolveVariable => do return (← w.classAt id).reportVariable n
  | .resolveFunction => do return (← w.classAt id).reportFunction n

/-- The answer about a name in an object. -/
def ObjectNameInquiry.answer (w : World) (o : ObjectId) (n : String) :
    ObjectNameInquiry → Except DispatchError Value
  | .report => w.reportNamedOption o n
  | .component => do return .ofObject? (← w.boundTo o n)

/-! ### Effects -/

/-- Sets the variable that a name means to the running code. -/
def setVariable (name : String) (v : Value) : Run Unit := do
  let (o, x) ← Run.look (·.scopedVariable name)
  let _ ← Run.look (·.objectAt o)
  Run.happen (.assigned o x.fullName v)

/-- Unsets the variable that a name means to the running code. -/
def unsetVariable (name : String) : Run Unit := do
  let (o, x) ← Run.look (·.scopedVariable name)
  if ((← Run.look (·.objectAt o)).value? x.fullName).isNone then Run.fail (.noSuchVariable name)
  else Run.happen (.cleared o x.fullName)

/-- Defines a class and registers it. -/
def defineClass (d : ClassDecl Expr) : Run ClassId := do
  let c ← Run.look fun w => d.build w.registry w.options
  Run.happen (.classRegistered c)
  return c.id

/-- The map of the names that a loader knows; of two entries of one name the
later counts. -/
def ClassLoader.ofList (known : List (String × Expr)) : ClassLoader :=
  known.foldl (fun l p => l.insert p.1 p.2) .empty

/-- What catching makes of the end of a run. -/
def caught : Except DispatchError Value → Value
  | .ok v => .list [.str "ok", v]
  | .error e => .list [.str e.kind, .str e.message]

/-! ### Expressions -/

namespace Expr

variable (enter : Enter) (consult : Evaluate)

mutual

/-- The value of an expression in a body that was called with the arguments
`args`. -/
def eval : Expr → (args : List Value) → Run Value
  | .const v, _ => pure v
  | .list items, args => do return .list (← evalAll items args)
  | .sequence items, args => do return (← evalAll items args).getLast?.getD Value.empty
  | .concat items, args => do
      return .str ("".intercalate ((← evalAll items args).map (·.text)))
  | .arguments, args => pure (.list args)
  | .argument i, args =>
      match args[i]? with
      | some v => pure v
      | none => Run.fail (.script (.missingArgument i))
  | .cond c a b, args => do
      if (← eval c args).isTrue then eval a args else eval b args
  | .sameText a b, args => do
      let x ← eval a args
      let y ← eval b args
      return .ofBool (x.text = y.text)
  | .less a b, args => do
      -- the first operand is checked before the second is evaluated
      let x ← Run.answer (← eval a args).toInteger
      let y ← Run.answer (← eval b args).toInteger
      return .ofBool (x < y)
  | .add a b, args => do
      let x ← Run.answer (← eval a args).toInteger
      let y ← Run.answer (← eval b args).toInteger
      return .int (x + y)
  | .raise kind text, args => do Run.fail (kind.raise (← eval text args).text)
  | .guarded body, args => do return caught (← Run.attempt (eval body args))
  | .log item, args => do
      let v ← eval item args
      Run.happen (.logged v)
      return Value.empty
  | .getVar name, args => do
      let n ← eval name args
      Run.look (·.getVariable n.text)
  | .setVar name value, args => do
      let n ← eval name args
      let v ← eval value args
      setVariable n.text v
      return Value.empty
  | .unsetVar name, args => do
      let n ← eval name args
      unsetVariable n.text
      return Value.empty
  | .chain items, args => do ObjectDispatch.chain enter (← evalAll items args)
  | .chainOnward, args => ObjectDispatch.chain enter args
  | .invoke object member items, args => do
      let o ← evalObject object args
      let n ← eval member args
      let vs ← evalAll items args
      ObjectDispatch.invoke enter o n.text vs
  | .invokeOnward object member, args => do
      let o ← evalObject object args
      let n ← eval member args
      ObjectDispatch.invoke enter o n.text args
  | .callProc cls member items, args => do
      let c ← evalClass cls args
      let n ← eval member args
      let vs ← evalAll items args
      invokeProc enter c n.text vs
  | .within cls object body, args => do
      let c ← evalClass cls args
      let v ← evalOperand object args
      let o ← Run.look (·.optionalObject v)
      evalWithin enter c o body args
  | .defineClass decl, _ => do return (← ObjectDispatch.defineClass decl).value
  | .resolveClass name autoload, args => do
      let n ← eval name args
      let a ← eval autoload args
      return (← ObjectDispatch.resolveClass consult n.text a.isTrue).value
  | .create cls name items, args => do
      let c ← evalClass cls args
      let n ← eval name args
      let vs ← evalAll items args
      return (← createObject enter c n.text vs).value
  | .delete object, args => do
      let o ← evalObject object args
      deleteObject enter o
      return Value.empty
  | .bindComponent object component target, args => do
      let o ← evalObject object args
      let n ← eval component args
      let t ← evalObject target args
      ObjectDispatch.bindComponent o n.text t
      return Value.empty
  | .setLoader known, _ => do
      Run.happen (.loaderInstalled (.ofList known))
      return Value.empty
  | .setDelegate code, _ => do
      Run.happen (.delegateInstalled code)
      return Value.empty
  | .ask q, _ => Run.look q.answer
  | .askName q name, args => do
      let n ← eval name args
      return q.answer (← Run.world) n.text
  | .askClass q cls, args => do
      let c ← evalClass cls args
      Run.look (q.answer · c)
  | .askClassName q cls name, args => do
      let c ← evalClass cls args
      let n ← eval name args
      Run.look (q.answer · c n.text)
  | .describeObject object, args => do
      let o ← evalObject object args
      Run.look (·.reportObject o)
  | .askObjectName q object name, args => do
      let o ← evalObject object args
      let n ← eval name args
      Run.look (q.answer · o n.text)
  | .isa object cls, args => do
      let o ← evalObject object args
      let c ← evalClass cls args
      return .ofBool (← Run.look (·.objectIsA o c))

/-- The values of expressions, from left to right. -/
def evalAll : List Expr → (args : List Value) → Run (List Value)
  | [], _ => pure []
  | e :: es, args => do
      let v ← eval e args
      return v :: (← evalAll es args)

/-- The value of an operand that may be left out. -/
def evalOperand : Option Expr → (args : List Value) → Run (Option Value)
  | none, _ => pure none
  | some e, args => do return some (← eval e args)

/-- The object that an operand means. -/
def evalObject : Option Expr → (args : List Value) → Run ObjectId
  | none, _ => Run.look (·.objectOperand none)
  | some e, args => do
      let v ← eval e args
      Run.look (·.objectOperand (some v))

/-- The class that an operand means. -/
def evalClass : Option Expr → (args : List Value) → Run ClassId
  | none, _ => Run.look (·.classOperand none)
  | some e, args => do
      let v ← eval e args
      Run.look (·.classOperand (some v))

end

end Expr

/-! ### The bounded recursions -/

/-- Evaluates an expression with at most `loads` nested calls of the class
loader. -/
def evaluateLoading (enter : Enter) : (loads : Nat) → Evaluate
  | 0, e, args => e.eval enter (fun _ _ => Run.exhaust) args
  | loads + 1, e, args => e.eval enter (evaluateLoading enter loads) args

/-- Runs a builtin method in the innermost frame. -/
def runBuiltin (enter : Enter) (evaluate : Evaluate) (args : List Value) : Builtin → Run Value
  | .cget => cget evaluate args
  | .configure => configure enter evaluate args
  | .info => Run.look (·.info args)
  | .isa => ObjectDispatch.isa evaluate args

/-- Runs code in the innermost frame with at most `frames` nested frames, that
one included, and at most `loads` nested calls of the class loader in each. -/
def runCode (loads : Nat) : (frames : Nat) → Code → List Value → Run Value
  | 0, _, _ => Run.exhaust
  | frames + 1, .script e, args => evaluateLoading (enterFrame (runCode loads frames)) loads e args
  | frames + 1, .builtin b, args =>
      runBuiltin (enterFrame (runCode loads frames))
        (evaluateLoading (enterFrame (runCode loads frames)) loads) args b

/-- Evaluates an expression where at most `frames` further frames can be entered,
with at most `loads` nested calls of the class loader in each and outside them. -/
def evaluate (loads frames : Nat) : Evaluate :=
  fun e args => evaluateLoading (enterFrame (runCode loads frames)) loads e args

end ObjectDispatch
