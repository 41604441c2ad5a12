import Phrasebook.Proofs.Script.Expression

/-!
# Programs of scripts

The statements, types and declarations that generated modules are made of, and what a call of an
exported function returns. As for expressions, execution has no result where a script would throw
an error and none for what lies outside of this part of TypeScript.

Names are bound per block. From the start of a block on, a name that the block binds hides what it
stood for outside, and it cannot be read before it is bound.
-/

namespace Phrasebook.Script

/-! ### Syntax -/

mutual
/-- A statement. -/
inductive Statement where
  /-- A name for a value, up to the end of the block. -/
  | constant (name : Text) (value : Expr)
  /-- The end of the function, with its result. -/
  | result (value : Expr)
  | block (body : List Statement)
  /-- Statements from the first clause on whose label is the value of the subject, or else from
  the clause without a label on. -/
  | switch (subject : Expr) (clauses : List Clause)

/-- A clause of a switch. The default clause has no label. -/
structure Clause where
  label : Option Expr
  body : List Statement
end

/-- A type. -/
inductive Shape where
  | name (name : Text)
  /-- The type of a single string. -/
  | literal (text : Text)
  | record (fields : List (Text × Shape))
  /-- A tuple type with labels. -/
  | tuple (items : List (Text × Shape))
  | union (alternatives : List Shape)

/-- The types that a type is the union of. -/
def Shape.alternatives : Shape → List Shape
  | .union types => types
  | .name own => if own = "never" then [] else [.name own]
  | shape => [shape]

/-- The labels of a tuple type. -/
def Shape.labels : Shape → List Text
  | .tuple types => types.map Prod.fst
  | _ => []

/-- A function of any number of arguments, which are passed to it as one tuple. -/
structure Function where
  parameter : Text
  parameterShape : Shape
  resultShape : Shape
  body : List Statement

/-- An exported declaration. -/
inductive Declaration where
  | shape (name : Text) (shape : Shape)
  | function (name : Text) (function : Function)

/-- The name of a declaration. -/
def Declaration.name : Declaration → Text
  | .shape own _ => own
  | .function own _ => own

/-- A module is the list of its declarations. -/
abbrev Module := List Declaration

/-! ### Execution -/

/-- The scope without some names. -/
def Scope.hide (scope : Scope) (names : List Text) : Scope :=
  fun x => if x ∈ names then none else scope x

/-- What a statement leads to. -/
inductive Outcome where
  /-- The function returns a value. -/
  | returned (value : Value)
  /-- Execution goes on in a scope. -/
  | completed (scope : Scope)

/-- The outcome of a block in an outer scope. -/
def Outcome.leave (outer : Scope) : Outcome → Outcome
  | .returned value => .returned value
  | .completed _ => .completed outer

/-- The outcome of what comes next, if the function has not returned. -/
def Outcome.next (next : Scope → Option Outcome) : Outcome → Option Outcome
  | .returned value => some (.returned value)
  | .completed scope => next scope

/-- The names that statements bind in their own block. -/
def boundNames (body : List Statement) : List Text :=
  body.filterMap fun
    | .constant name _ => some name
    | _ => none

/-- The index of the first clause whose label is equal to a value, if there is one. -/
def labelIndex? (scope : Scope) (value : Value) : List Clause → Option (Option Nat)
  | [] => some none
  | clause :: rest =>
    match clause.label with
    | none => (labelIndex? scope value rest).map fun index => index.map (· + 1)
    | some label =>
      (label.eval scope).bind fun a =>
        (value.strictEqual? a).bind fun same =>
          if same then some (some 0)
          else (labelIndex? scope value rest).map fun index => index.map (· + 1)

/-- The index of the default clause, or the number of clauses if there is none. -/
def defaultIndex (clauses : List Clause) : Nat := clauses.findIdx fun clause => clause.label.isNone

mutual
/-- Runs a statement. A name cannot be bound where it can be read already. -/
def Statement.exec (scope : Scope) : Statement → Option Outcome
  | .constant name value =>
    if (scope name).isSome then none
    else (value.eval scope).map fun a => .completed (scope.bind name a)
  | .result value => (value.eval scope).map .returned
  | .block body => (execAll (scope.hide (boundNames body)) body).map (Outcome.leave scope)
  | .switch subject clauses =>
    let inner := scope.hide (clauses.flatMap fun clause => boundNames clause.body)
    (subject.eval scope).bind fun value =>
      (labelIndex? inner value clauses).bind fun index =>
        (execFrom inner (index.getD (defaultIndex clauses)) clauses).map (Outcome.leave scope)

/-- Runs statements, one after the other. -/
def execAll (scope : Scope) : List Statement → Option Outcome
  | [] => some (.completed scope)
  | statement :: rest =>
    (statement.exec scope).bind (Outcome.next fun scope => execAll scope rest)

/-- Runs the statements of clauses from an index on. -/
def execFrom (scope : Scope) : Nat → List Clause → Option Outcome
  | _, [] => some (.completed scope)
  | index + 1, _ :: rest => execFrom scope index rest
  | 0, ⟨_, body⟩ :: rest =>
    (execAll scope body).bind (Outcome.next fun scope => execFrom scope 0 rest)
end

/-- What a function returns for some arguments. -/
def Function.call? (function : Function) (arguments : List Value) : Option Value :=
  (execAll (.single function.parameter (.tuple arguments)) function.body).map fun
    | .returned value => value
    | .completed _ => .undefined

namespace Module

/-- The type that a module exports under a name. -/
def shape? (module : Module) (name : Text) : Option Shape :=
  module.findSome? fun
    | .shape own shape => if own = name then some shape else none
    | .function _ _ => none

/-- The function that a module exports under a name. -/
def function? (module : Module) (name : Text) : Option Function :=
  module.findSome? fun
    | .shape _ _ => none
    | .function own function => if own = name then some function else none

/-- What the function under a name returns for some arguments. -/
def call? (module : Module) (name : Text) (arguments : List Value) : Option Value :=
  (module.function? name).bind fun function => function.call? arguments

end Module

/-! ### Names that are bound and read -/

mutual
/-- Whether a statement binds a name to an expression, in a block at any depth. -/
def Statement.Binds (name : Text) (value : Expr) : Statement → Prop
  | .constant own expr => own = name ∧ expr = value
  | .result _ => False
  | .block body => BindsAny name value body
  | .switch _ clauses => BindsClause name value clauses

/-- Whether one of the statements binds a name to an expression. -/
def BindsAny (name : Text) (value : Expr) : List Statement → Prop
  | [] => False
  | statement :: rest => statement.Binds name value ∨ BindsAny name value rest

/-- Whether one of the clauses binds a name to an expression. -/
def BindsClause (name : Text) (value : Expr) : List Clause → Prop
  | [] => False
  | ⟨_, body⟩ :: rest => BindsAny name value body ∨ BindsClause name value rest
end

mutual
/-- Whether an expression in a statement reads a name. -/
def Statement.reads (name : Text) : Statement → Bool
  | .constant _ value => value.reads name
  | .result value => value.reads name
  | .block body => readsAny name body
  | .switch subject clauses => subject.reads name || readsClause name clauses

/-- Whether an expression in one of the statements reads a name. -/
def readsAny (name : Text) : List Statement → Bool
  | [] => false
  | statement :: rest => statement.reads name || readsAny name rest

/-- Whether an expression in one of the clauses reads a name. -/
def readsClause (name : Text) : List Clause → Bool
  | [] => false
  | ⟨label, body⟩ :: rest =>
    label.any (Expr.reads name) || readsAny name body || readsClause name rest
end

mutual
/-- The value of an expression depends on the names that it reads. -/
theorem Expr.eval_congr {scope scope' : Scope} (e : Expr)
    (h : ∀ x, e.reads x = true → scope x = scope' x) : e.eval scope = e.eval scope' := by
  match e with
  | .name x => exact h x (by simp [Expr.reads])
  | .number _ => rfl
  | .string _ => rfl
  | .template parts =>
    rw [Expr.eval, Expr.eval, Parts.eval_congr parts fun x hx => h x (by simp [Expr.reads, hx])]
  | .member object optional key =>
    rw [Expr.eval, Expr.eval, Expr.eval_congr object fun x hx => h x (by simp [Expr.reads, hx]),
      Expr.eval_congr key fun x hx => h x (by simp [Expr.reads, hx])]
  | .equal left right =>
    rw [Expr.eval, Expr.eval, Expr.eval_congr left fun x hx => h x (by simp [Expr.reads, hx]),
      Expr.eval_congr right fun x hx => h x (by simp [Expr.reads, hx])]
  | .coalesce left right =>
    rw [Expr.eval, Expr.eval, Expr.eval_congr left fun x hx => h x (by simp [Expr.reads, hx]),
      Expr.eval_congr right fun x hx => h x (by simp [Expr.reads, hx])]
  | .conditional test yes no =>
    rw [Expr.eval, Expr.eval, Expr.eval_congr test fun x hx => h x (by simp [Expr.reads, hx]),
      Expr.eval_congr yes fun x hx => h x (by simp [Expr.reads, hx]),
      Expr.eval_congr no fun x hx => h x (by simp [Expr.reads, hx])]

theorem Parts.eval_congr {scope scope' : Scope} (parts : Parts)
    (h : ∀ x, parts.reads x = true → scope x = scope' x) :
    parts.eval scope = parts.eval scope' := by
  match parts with
  | .last _ => rfl
  | .hole _ value rest =>
    rw [Parts.eval, Parts.eval, Expr.eval_congr value fun x hx => h x (by simp [Parts.reads, hx]),
      Parts.eval_congr rest fun x hx => h x (by simp [Parts.reads, hx])]
end

end Phrasebook.Script
