import ObjectDispatch.Member

/-!
# Frames

Running code has a frame: the class in whose scope it runs, the object it runs
on, if any, and the name under which the member was called.  The frames form a
stack of limited depth, and the innermost frame is all that running code is told
about its call.

## Main definitions

* `Frame`, `FrameKind` — frames.
* `Activity` — what runs in a frame.
* `CallStack` — the frames, innermost first.

## Main results

* `CallStack.depth_le_of_push` — the stack never grows past its limit.
* `CallStack.pop_entered` — a frame that is left again leaves no trace.
-/

namespace ObjectDispatch

/-- What kind of code a frame runs. -/
inductive FrameKind where
  /-- The body of a method. -/
  | method : FrameKind
  /-- The body of a procedure. -/
  | proc : FrameKind
  /-- A builtin method. -/
  | builtin : FrameKind
  /-- The body or the initializer of a constructor. -/
  | ctor : FrameKind
  /-- The body of a destructor. -/
  | dtor : FrameKind
  /-- The hook of a public variable. -/
  | hook : FrameKind
  /-- An expression in the scope of a class, outside any member. -/
  | eval : FrameKind
  deriving DecidableEq, Repr, Inhabited

/-- The word for a kind of frame. -/
def FrameKind.word : FrameKind → String
  | .method => "Method"
  | .proc => "Proc"
  | .builtin => "Builtin"
  | .ctor => "Constructor"
  | .dtor => "Destructor"
  | .hook => "ConfigHook"
  | .eval => "Eval"

/-- The record of a call that is going on. -/
structure Frame where
  /-- The class in whose scope the code runs. -/
  scope : ClassId
  /-- The object it runs on. -/
  object : Option ObjectId
  /-- The name under which the member was called. -/
  member : Option String
  /-- What kind of code runs. -/
  kind : FrameKind
  deriving DecidableEq, Repr, Inhabited

/-- What runs in a frame. -/
inductive Activity where
  /-- The body of a function. -/
  | body (f : MemberFunction) : Activity
  /-- The initializer of a constructor. -/
  | initializer (f : MemberFunction) (code : Expr) : Activity
  /-- The hook of a variable. -/
  | hook (v : Variable) (code : Expr) : Activity
  /-- An expression in the scope of a class. -/
  | scoped (code : Expr) : Activity
  deriving Inhabited

/-- The code of an activity. -/
def Activity.code : Activity → Code
  | .body f => f.body
  | .initializer _ e => .script e
  | .hook _ e => .script e
  | .scoped e => .script e

/-- The frames of the calls that are going on, with their number at hand. -/
structure CallStack where
  /-- The frames, innermost first. -/
  frames : List Frame
  /-- How many frames there may be. -/
  limit : Nat
  /-- The number of frames. -/
  depth : Nat
  /-- The number is right. -/
  depth_eq : depth = frames.length
  deriving DecidableEq

namespace CallStack

/-- The stack without frames, with room for `limit` of them. -/
def empty (limit : Nat) : CallStack :=
  { frames := [], limit := limit, depth := 0, depth_eq := rfl }

instance : Inhabited CallStack := ⟨empty 0⟩

/-- There is no frame. -/
def isEmpty (s : CallStack) : Bool := s.frames.isEmpty

/-- The innermost frame. -/
def current? (s : CallStack) : Option Frame := s.frames.head?

/-- The stack with one more frame, whatever the limit. -/
def entered (s : CallStack) (f : Frame) : CallStack :=
  { s with
    frames := f :: s.frames
    depth := s.depth + 1
    depth_eq := by rw [s.depth_eq, List.length_cons] }

/-- The stack with one more frame, refused at the limit. -/
def push (s : CallStack) (f : Frame) : Except DispatchError CallStack :=
  if s.limit ≤ s.depth then .error (.usage .tooDeep) else .ok (s.entered f)

/-- The stack without its innermost frame. -/
def pop (s : CallStack) : CallStack :=
  { s with
    frames := s.frames.tail
    depth := s.depth - 1
    depth_eq := by rw [s.depth_eq, List.length_tail] }

/-- A stack within its limit stays within it. -/
theorem depth_le_of_push {s t : CallStack} {f : Frame} (h : s.push f = .ok t) :
    t.depth ≤ t.limit := by
  unfold push at h
  split at h
  · simp at h
  · next hlt =>
    simp only [Except.ok.injEq] at h
    subst h
    simp only [entered]
    omega

/-- A frame that was entered and left has left no trace. -/
@[simp] theorem pop_entered (s : CallStack) (f : Frame) : (s.entered f).pop = s := rfl

end CallStack

end ObjectDispatch
