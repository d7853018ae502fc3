/-!
# Kinds of classes and of access

A class is defined as a plain class, a type, a widget or a widget adaptor.  The
kind is recorded in the flags of the class; a widget has a hull besides, which
is a frame unless a toplevel was asked for.

## Main definitions

* `Protection` — who may use a member.
* `ClassKind` — the four ways to define a class.
* `ClassFlags`, `hullFlags` — what is recorded of them.

## Main results

* `hullFlags_widget_hull` — every widget has a hull.
-/

namespace ObjectDispatch

/-- Who may use a member. -/
inductive Protection where
  /-- Everybody.  Public variables are the options of an object. -/
  | pub : Protection
  /-- Code of the classes in the heritage of the class that is asked. -/
  | prot : Protection
  /-- Code of the declaring class. -/
  | priv : Protection
  deriving DecidableEq, Repr, Inhabited

/-- The word for a protection in messages. -/
def Protection.word : Protection → String
  | .pub => "public"
  | .prot => "protected"
  | .priv => "private"

/-- The ways to define a class. -/
inductive ClassKind where
  /-- A plain class. -/
  | plain : ClassKind
  /-- A type: like a class, with no window of its own. -/
  | type : ClassKind
  /-- A composite built around a new hull. -/
  | widget : ClassKind
  /-- A composite around a hull that exists already. -/
  | adaptor : ClassKind
  deriving DecidableEq, Repr, Inhabited

/-- Classes of this kind own a hull component and an options variable. -/
def ClassKind.isComposite : ClassKind → Bool
  | .widget | .adaptor => true
  | .plain | .type => false

/-- What is recorded of the definition of a class. -/
structure ClassFlags where
  /-- Defined as a plain class. -/
  plain : Bool := false
  /-- Defined as a type. -/
  type : Bool := false
  /-- Defined as a widget. -/
  widget : Bool := false
  /-- The hull is a frame. -/
  frame : Bool := false
  /-- The hull is a toplevel. -/
  toplevel : Bool := false
  /-- Defined as a widget adaptor. -/
  adaptor : Bool := false
  deriving DecidableEq, Repr, Inhabited

/-- The flag of a kind by itself. -/
def ClassKind.flags : ClassKind → ClassFlags
  | .plain => { plain := true }
  | .type => { type := true }
  | .widget => { widget := true }
  | .adaptor => { adaptor := true }

/-- The names of the flags that are set, in their fixed order. -/
def ClassFlags.names (f : ClassFlags) : List String :=
  [(f.plain, "CLASS"), (f.type, "TYPE"), (f.widget, "WIDGET"), (f.frame, "WIDGET_FRAME"),
    (f.toplevel, "WIDGET_TOPLEVEL"), (f.adaptor, "WIDGET_ADAPTOR")].filterMap
      fun p => if p.1 then some p.2 else none

/-- The flags of a class of the given kind for which `f` was asked: a widget
without a hull gets a frame, and nothing but a widget has a hull. -/
def hullFlags (kind : ClassKind) (f : ClassFlags) : ClassFlags :=
  match kind with
  | .widget => if f.frame || f.toplevel then f else { f with frame := true }
  | _ => { f with frame := false, toplevel := false }

/-- Every widget has a hull. -/
theorem hullFlags_widget_hull (f : ClassFlags) :
    ((hullFlags .widget f).frame || (hullFlags .widget f).toplevel) = true := by
  unfold hullFlags
  cases h : f.frame || f.toplevel <;> simp [h]

end ObjectDispatch
