import ObjectDispatch.Heritage

/-!
# What names mean in a class

A member can be addressed by every spelling of its full name.  Where members of
a heritage share a spelling, the first of them has it: classes in heritage
order, and the members of one class in the order of their creation.  Lifecycle
functions are not addressed by name and have no spellings.

## Main definitions

* `claimVariable`, `claimFunction` — a member takes the spellings that are left.
* `Class.resolved` — a class with both of its tables made.
-/

namespace ObjectDispatch

/-- The table after the variable `v` has taken the spellings that are left, as
seen from the class `viewer`.  A variable that finds no spelling left is not
entered. -/
def claimVariable (viewer : ClassId) (table : NameMap VarLookup) (v : Variable) :
    NameMap VarLookup :=
  match (Name.spellings v.fullName).filter (!table.contains ·) with
  | [] => table
  | least :: others =>
      let entry : VarLookup :=
        { var := v
          leastName := least
          usage := others.length + 1
          accessible := v.protection ≠ .priv || v.owner = viewer }
      (least :: others).foldl (fun t n => t.insert n entry) table

/-- The table after the function `f` has taken the spellings that are left. -/
def claimFunction (table : NameMap MemberFunction) (f : MemberFunction) :
    NameMap MemberFunction :=
  if f.isLifecycle then table
  else (Name.spellings f.fullName).foldl (fun t n => t.claim n f) table

namespace Class

/-- The classes of the heritage of `c`.  The class itself need not be registered
yet. -/
def lineage (c : Class) (r : Registry) : List Class :=
  c.heritage.filterMap fun id => if id = c.id then some c else r.get? id

/-- The class with the tables that its heritage gives. -/
def resolved (c : Class) (r : Registry) : Class :=
  { c with
    varNames :=
      ((c.lineage r).flatMap (·.ownVariables.toList)).foldl (claimVariable c.id) .empty
    functionNames :=
      ((c.lineage r).flatMap (·.functions.toList)).foldl claimFunction .empty }

end Class

end ObjectDispatch
