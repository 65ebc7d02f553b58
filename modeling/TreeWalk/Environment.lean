import TreeWalk.Value

/-!
Variables in nested scopes. Scopes lie in an array and refer to the scope around them by
place; the innermost one is current. A name belongs to the nearest scope that binds it.
-/
set_option autoImplicit false

namespace TreeWalk

/-- Names with their values, each name once. -/
abbrev Bindings := List (String × Value)

def Bindings.insert (name : String) (value : Value) : Bindings → Bindings
  | [] => [(name, value)]
  | (bound, old) :: rest =>
    if bound = name then (name, value) :: rest else (bound, old) :: Bindings.insert name value rest

theorem Bindings.lookup_insert_self (name : String) (value : Value) (bindings : Bindings) :
    (bindings.insert name value).lookup name = some value := by
  induction bindings with
  | nil => simp [Bindings.insert]
  | cons head rest ih =>
    obtain ⟨bound, old⟩ := head
    by_cases same : bound = name
    · simp [Bindings.insert, same]
    · have other : (name == bound) = false := by simpa using Ne.symm same
      simp [Bindings.insert, same, List.lookup_cons, other, ih]

theorem Bindings.lookup_insert_of_ne {name wanted : String} (value : Value)
    (bindings : Bindings) (different : wanted ≠ name) :
    (bindings.insert name value).lookup wanted = bindings.lookup wanted := by
  have other : (wanted == name) = false := by simpa using different
  induction bindings with
  | nil => simp [Bindings.insert, List.lookup_cons, other]
  | cons head rest ih =>
    obtain ⟨bound, old⟩ := head
    by_cases same : bound = name
    · simp [Bindings.insert, same, List.lookup_cons, other]
    · simp [Bindings.insert, same, List.lookup_cons, ih]

def Bindings.same (left right : Bindings) : Bool :=
  left.length = right.length &&
    left.all fun (name, value) => (right.lookup name).any value.equals

structure Scope where
  bindings : Bindings
  enclosing : Option Nat
  deriving DecidableEq

structure Environment where
  scopes : Array Scope
  current : Nat
  deriving DecidableEq

namespace Environment

def empty : Environment := { scopes := #[⟨[], none⟩], current := 0 }

def depth (environment : Environment) : Nat := environment.scopes.size

def push (environment : Environment) : Environment :=
  { scopes := environment.scopes.push ⟨[], some environment.current⟩
    current := environment.scopes.size }

/-- Drops the innermost scope. The global scope stays. -/
def pop (environment : Environment) : Environment :=
  if environment.scopes.size = 1 then environment
  else
    match environment.scopes.back? with
    | none => environment
    | some scope =>
      { scopes := environment.scopes.pop, current := scope.enclosing.getD 0 }

def bindAt (environment : Environment) (place : Nat) (name : String) (value : Value) :
    Environment :=
  { environment with
    scopes := environment.scopes.modify place fun scope =>
      { scope with bindings := Bindings.insert name value scope.bindings } }

def define (environment : Environment) (name : String) (value : Value) : Environment :=
  environment.bindAt environment.current name value

/-- Looks for a name in at most `count` scopes, going outward from a place; answers with the
place and the value of its nearest binding. -/
def resolveFrom (environment : Environment) (name : String) : Nat → Nat → Option (Nat × Value)
  | 0, _ => none
  | count + 1, place =>
    match environment.scopes[place]? with
    | none => none
    | some scope =>
      match scope.bindings.lookup name with
      | some value => some (place, value)
      | none => scope.enclosing.bind (environment.resolveFrom name count)

/-- The nearest binding of a name: no chain is longer than the number of scopes. -/
def resolve (environment : Environment) (name : String) : Option (Nat × Value) :=
  environment.resolveFrom name environment.scopes.size environment.current

def get? (environment : Environment) (name : String) : Option Value :=
  (environment.resolve name).map Prod.snd

def assign? (environment : Environment) (name : String) (value : Value) : Option Environment :=
  (environment.resolve name).map fun (place, _) => environment.bindAt place name value

def isDefined (environment : Environment) (name : String) : Bool :=
  (environment.resolve name).isSome

/-- The same scopes with the same bindings, nested alike, and the same one current. -/
def same (left right : Environment) : Bool :=
  left.current = right.current && left.scopes.size = right.scopes.size &&
    (left.scopes.toList.zip right.scopes.toList).all fun (mine, theirs) =>
      mine.enclosing = theirs.enclosing && Bindings.same mine.bindings theirs.bindings

end Environment

end TreeWalk
