import Phrasebook.Text.Basic

/-!
# Expressions of scripts

The expressions that generated scripts are made of, and what they evaluate to. This is the part of
TypeScript with names, numerals, string literals, template literals, properties, `===`, `??` and
conditions. Records inherit members, as objects do. Evaluation is partial: it has no result where a
script would throw an error, and none for what lies outside of this part of the language.
-/

namespace Phrasebook.Script

/-- What records inherit. Under each name there can be a function or another object, which is known
by the text that it contributes to a template literal. That text is never empty. -/
structure Prototype where
  text? : Text → Option Text
  text?_ne_nil : ∀ name, text? name ≠ some []

namespace Prototype

/-- The text of what is inherited under a name. It is empty if nothing is. -/
def text (prototype : Prototype) (name : Text) : Text := (prototype.text? name).getD []

theorem text_eq_nil_iff {prototype : Prototype} {name : Text} :
    prototype.text name = [] ↔ prototype.text? name = none := by
  have hne := prototype.text?_ne_nil name
  rw [text]
  cases h : prototype.text? name with
  | none => simp
  | some text => simpa [h] using hne

/-- The functions that all ordinary objects inherit, apart from their constructor. -/
def methods : List Text :=
  ["hasOwnProperty", "isPrototypeOf", "propertyIsEnumerable", "toLocaleString", "toString",
    "valueOf", "__defineGetter__", "__defineSetter__", "__lookupGetter__", "__lookupSetter__"]

/-- The text of a function that is not written in the language itself. The blanks in it are up to
the implementation. -/
def nativeText (name : Text) : Text := "function " ++ name ++ "() \x7b [native code] " ++ ['}']

theorem nativeText_ne_nil (name : Text) : nativeText name ≠ [] :=
  List.append_ne_nil_of_right_ne_nil _ (List.cons_ne_nil _ _)

/-- What ordinary objects inherit. -/
def ordinary : Prototype where
  text? name :=
    if name = "__proto__" then some "[object Object]"
    else if name = "constructor" then some (nativeText "Object")
    else if name ∈ methods then some (nativeText name)
    else none
  text?_ne_nil name := by
    have hnative (function : Text) : some (nativeText function) ≠ some [] :=
      fun h => nativeText_ne_nil function (Option.some.inj h)
    by_cases hproto : name = "__proto__"
    · rw [if_pos hproto]
      simp
    rw [if_neg hproto]
    by_cases hconstructor : name = "constructor"
    · rw [if_pos hconstructor]
      exact hnative _
    rw [if_neg hconstructor]
    by_cases hmethod : name ∈ methods
    · rw [if_pos hmethod]
      exact hnative _
    · rw [if_neg hmethod]
      nofun

end Prototype

/-- What an expression can stand for. -/
inductive Value where
  | undefined
  | boolean (value : Bool)
  | number (value : Nat)
  | string (value : Text)
  /-- A function or another object that was inherited, known by its text. -/
  | inherited (text : Text)
  /-- Strings under names. Under any other name a record has what it inherits. -/
  | record (fields : Text → Option Text) (prototype : Prototype)
  | tuple (items : List Value)

namespace Value

/-- Whether a value is missing. -/
def isUndefined : Value → Bool
  | undefined => true
  | _ => false

/-- Whether a condition with this value holds. -/
def isTruthy : Value → Bool
  | undefined => false
  | boolean value => value
  | number value => value != 0
  | string value => !value.isEmpty
  | inherited _ => true
  | record _ _ => true
  | tuple _ => true

/-- The text that a value contributes to a template literal. -/
def text? : Value → Option Text
  | undefined => some "undefined"
  | boolean value => some (if value then "true" else "false")
  | number value => some (Text.decimal value)
  | string value => some value
  | inherited text => some text
  | record _ _ => none
  | tuple _ => none

/-- The property of a value under a key. -/
def get? : Value → (key : Value) → Option Value
  | record fields prototype, string key =>
    some ((fields key).elim ((prototype.text? key).elim undefined inherited) string)
  | tuple items, number key => some (items[key]?.getD undefined)
  | _, _ => none

/-- Whether two values are strictly equal. Identities of objects are not known, but no object is
equal to a string. -/
def strictEqual? : Value → Value → Option Bool
  | record _ _, _ => none
  | tuple _, _ => none
  | _, record _ _ => none
  | _, tuple _ => none
  | inherited _, inherited _ => none
  | undefined, undefined => some true
  | boolean a, boolean b => some (a = b)
  | number a, number b => some (a = b)
  | string a, string b => some (a = b)
  | _, _ => some false

end Value

mutual
/-- An expression. -/
inductive Expr where
  | name (name : Text)
  | number (value : Nat)
  | string (value : Text)
  | template (parts : Parts)
  /-- The property under a key. If the access is optional, a missing object has no properties. -/
  | member (object : Expr) (optional : Bool) (key : Expr)
  | equal (left right : Expr)
  | coalesce (left right : Expr)
  | conditional (test yes no : Expr)

/-- The inside of a template literal, from some place on. -/
inductive Parts where
  /-- Text up to the end of the literal. -/
  | last (text : Text)
  /-- Text up to a substitution, the substitution, and what follows it. -/
  | hole (text : Text) (value : Expr) (rest : Parts)
end

/-- Text in front of the inside of a template literal. -/
def Parts.prepend (text : Text) : Parts → Parts
  | last more => last (text ++ more)
  | hole more value rest => hole (text ++ more) value rest

/-- The values of the names that can be read at a place. -/
abbrev Scope := Text → Option Value

/-- The scope in which a single name has a value. -/
def Scope.single (name : Text) (value : Value) : Scope :=
  fun x => if x = name then some value else none

/-- The scope with one more name, which hides what it stood for before. -/
def Scope.bind (scope : Scope) (name : Text) (value : Value) : Scope :=
  fun x => if x = name then some value else scope x

mutual
/-- The value of an expression. -/
def Expr.eval (scope : Scope) : Expr → Option Value
  | .name x => scope x
  | .number n => some (.number n)
  | .string text => some (.string text)
  | .template parts => (parts.eval scope).map .string
  | .member object optional key =>
    (object.eval scope).bind fun value =>
      if optional && value.isUndefined then some .undefined
      else (key.eval scope).bind value.get?
  | .equal left right =>
    (left.eval scope).bind fun a =>
      (right.eval scope).bind fun b => (a.strictEqual? b).map .boolean
  | .coalesce left right =>
    (left.eval scope).bind fun a => if a.isUndefined then right.eval scope else some a
  | .conditional test yes no =>
    (test.eval scope).bind fun a => if a.isTruthy then yes.eval scope else no.eval scope

/-- The text of the inside of a template literal. -/
def Parts.eval (scope : Scope) : Parts → Option Text
  | .last text => some text
  | .hole text value rest =>
    (value.eval scope).bind fun a =>
      a.text?.bind fun inner => (rest.eval scope).map fun more => text ++ inner ++ more
end

mutual
/-- Whether an expression reads a name, evaluated or not. -/
def Expr.reads (x : Text) : Expr → Bool
  | .name y => x == y
  | .number _ => false
  | .string _ => false
  | .template parts => parts.reads x
  | .member object _ key => object.reads x || key.reads x
  | .equal left right => left.reads x || right.reads x
  | .coalesce left right => left.reads x || right.reads x
  | .conditional test yes no => test.reads x || yes.reads x || no.reads x

/-- Whether a substitution of a template literal reads a name. -/
def Parts.reads (x : Text) : Parts → Bool
  | .last _ => false
  | .hole _ value rest => value.reads x || rest.reads x
end

/-- A substitution contributes the text of its value. -/
theorem Parts.eval_hole {scope : Scope} {value : Expr} {a : Value} {inner : Text}
    (h : value.eval scope = some a) (ha : a.text? = some inner) (text : Text) (rest : Parts) :
    (Parts.hole text value rest).eval scope =
      (rest.eval scope).map fun more => text ++ inner ++ more := by
  rw [Parts.eval, h, Option.bind_some, ha]
  rfl

theorem Parts.eval_prepend (scope : Scope) (text : Text) (parts : Parts) :
    (parts.prepend text).eval scope = (parts.eval scope).map (text ++ ·) := by
  cases parts with
  | last more => rfl
  | hole more value rest =>
    simp [Parts.prepend, Parts.eval, Option.map_bind, Function.comp_def]

@[simp] theorem Parts.reads_prepend (x text : Text) (parts : Parts) :
    (parts.prepend text).reads x = parts.reads x := by
  cases parts <;> rfl

end Phrasebook.Script
