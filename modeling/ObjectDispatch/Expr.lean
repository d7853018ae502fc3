import ObjectDispatch.Class.Kind
import ObjectDispatch.Error
import ObjectDispatch.Value

/-!
# The language of member bodies

Bodies of member functions, hooks of variables, class loaders and delegates are
expressions, and so are the steps of a session.  Evaluating an expression gives
a value or an error, and may act on the classes and objects around it.

An operand that stands for a class or an object may be left out; what it means
then is said with each expression that has one.

## Main definitions

* `MemberDecl`, `ClassDecl` — how a class is defined.
* `Inquiry` and the like — the questions that change nothing.
* `Expr` — expressions.
-/

namespace ObjectDispatch

/-- A member in the definition of a class, with code of type `Code`. -/
inductive MemberDecl (Code : Type) where
  /-- A method: code that runs on an object. -/
  | method (name : String) (level : Protection) (body : Code) : MemberDecl Code
  /-- A public procedure: code that runs on the class. -/
  | procedure (name : String) (body : Code) : MemberDecl Code
  /-- The constructor, with the code that runs before the base classes are
  constructed, if any. -/
  | ctor (initializer : Option Code) (body : Code) : MemberDecl Code
  /-- The destructor. -/
  | dtor (body : Code) : MemberDecl Code
  /-- A variable, with its initial value, if any. -/
  | var (name : String) (level : Protection) (init : Option Value) : MemberDecl Code
  /-- A public variable with a hook: code that runs after each assignment by
  `configure`. -/
  | option (name : String) (init : Option Value) (hook : Code) : MemberDecl Code
  deriving Inhabited

/-- The definition of a class, with code of type `Code`. -/
structure ClassDecl (Code : Type) where
  /-- The name, read from the global namespace. -/
  name : String
  /-- What is defined. -/
  kind : ClassKind := .plain
  /-- Whether a toplevel is asked for as the hull. -/
  toplevel : Bool := false
  /-- The names of the direct superclasses. -/
  inherits : List String := []
  /-- The members. -/
  members : List (MemberDecl Code) := []
  deriving Inhabited

/-- A question about the point that evaluation has reached. -/
inductive Inquiry where
  /-- The innermost frame. -/
  | frame : Inquiry
  /-- The class and the object of the innermost frame. -/
  | context : Inquiry
  /-- The number of frames. -/
  | depth : Inquiry
  /-- The number of live objects. -/
  | objectCount : Inquiry
  /-- The function that `chain` would run. -/
  | chainTarget : Inquiry
  deriving DecidableEq, Repr

/-- A question about a name. -/
inductive NameInquiry where
  /-- The class that the name means. -/
  | findClass : NameInquiry
  /-- The object that the name means. -/
  | findObject : NameInquiry
  deriving DecidableEq, Repr

/-- A question about a class. -/
inductive ClassInquiry where
  /-- Everything that its definition recorded. -/
  | describe : ClassInquiry
  /-- The texts of its own functions and variables. -/
  | memberTexts : ClassInquiry
  /-- The names of the methods that everybody may call. -/
  | publicMethods : ClassInquiry
  /-- What every name of every member of its heritage means in it. -/
  | tables : ClassInquiry
  deriving DecidableEq, Repr

/-- A question about a name in a class. -/
inductive ClassNameInquiry where
  /-- The variable that the name means. -/
  | resolveVariable : ClassNameInquiry
  /-- The function that the name means. -/
  | resolveFunction : ClassNameInquiry
  deriving DecidableEq, Repr

/-- A question about a name in an object. -/
inductive ObjectNameInquiry where
  /-- The option report of the variable that the name means. -/
  | report : ObjectNameInquiry
  /-- The object that the component of that name is bound to. -/
  | component : ObjectNameInquiry
  deriving DecidableEq, Repr

/-- Expressions.  Operands are evaluated from left to right, and the first error
is the result. -/
inductive Expr where
  /-- A value that is known. -/
  | const (v : Value) : Expr
  /-- The list of the values. -/
  | list (items : List Expr) : Expr
  /-- The last of the values, or the empty value if there are none. -/
  | sequence (items : List Expr) : Expr
  /-- The texts one after the other. -/
  | concat (items : List Expr) : Expr
  /-- The list of the arguments of the running body. -/
  | arguments : Expr
  /-- One argument of the running body, counted from 0. -/
  | argument (position : Nat) : Expr
  /-- One of two expressions, as the condition tells; the other is not
  evaluated. -/
  | cond (condition whenTrue whenFalse : Expr) : Expr
  /-- Whether the texts are the same. -/
  | sameText (left right : Expr) : Expr
  /-- Whether the first integer is smaller. -/
  | less (left right : Expr) : Expr
  /-- The sum of two integers, in 64 bits. -/
  | add (left right : Expr) : Expr
  /-- An error with the text of the operand. -/
  | raise (kind : DispatchError.Raisable) (text : Expr) : Expr
  /-- `ok` with the value, or the kind of the error with its message. -/
  | guarded (body : Expr) : Expr
  /-- Writes the value to the log. -/
  | log (item : Expr) : Expr
  /-- The value of a variable of the running code. -/
  | getVar (name : Expr) : Expr
  /-- Sets a variable of the running code. -/
  | setVar (name value : Expr) : Expr
  /-- Unsets a variable of the running code. -/
  | unsetVar (name : Expr) : Expr
  /-- Runs the next more general implementation of the running member. -/
  | chain (args : List Expr) : Expr
  /-- The same, with the arguments of the running body. -/
  | chainOnward : Expr
  /-- Calls a member on an object, by default that of the frame. -/
  | invoke (object : Option Expr) (member : Expr) (args : List Expr) : Expr
  /-- The same, with the arguments of the running body. -/
  | invokeOnward (object : Option Expr) (member : Expr) : Expr
  /-- Calls a member at class level, by default of the class of the frame. -/
  | callProc (cls : Option Expr) (member : Expr) (args : List Expr) : Expr
  /-- Evaluates an expression in the scope of a class, by default that of the
  frame, and on an object, by default none. -/
  | within (cls object : Option Expr) (body : Expr) : Expr
  /-- Defines a class. -/
  | defineClass (decl : ClassDecl Expr) : Expr
  /-- The class that a name means, after asking the loader if that is allowed. -/
  | resolveClass (name autoload : Expr) : Expr
  /-- Creates an object. -/
  | create (cls : Option Expr) (name : Expr) (args : List Expr) : Expr
  /-- Deletes an object, by default that of the frame. -/
  | delete (object : Option Expr) : Expr
  /-- Binds a component of an object to another object. -/
  | bindComponent (object : Option Expr) (component : Expr) (target : Option Expr) : Expr
  /-- Installs a class loader: which names it knows, and what it evaluates to
  load them. -/
  | setLoader (known : List (String × Expr)) : Expr
  /-- Installs a widget delegate. -/
  | setDelegate (code : Expr) : Expr
  /-- A question about the point that evaluation has reached. -/
  | ask (q : Inquiry) : Expr
  /-- A question about a name. -/
  | askName (q : NameInquiry) (name : Expr) : Expr
  /-- A question about a class, by default that of the frame. -/
  | askClass (q : ClassInquiry) (cls : Option Expr) : Expr
  /-- A question about a name in a class, by default that of the frame. -/
  | askClassName (q : ClassNameInquiry) (cls : Option Expr) (name : Expr) : Expr
  /-- Everything about an object, by default that of the frame. -/
  | describeObject (object : Option Expr) : Expr
  /-- A question about a name in an object, by default that of the frame. -/
  | askObjectName (q : ObjectNameInquiry) (object : Option Expr) (name : Expr) : Expr
  /-- Whether a class is in the heritage of the class of an object, by default
  those of the frame. -/
  | isa (object cls : Option Expr) : Expr
  deriving Inhabited

end ObjectDispatch
