import ScarbCrates.Datum.Basic

/-!
# Ordering data

Sets and dictionaries are written in ascending order.  Values of one kind have an order; two
values of unrelated kinds have none, and a collection that holds both cannot be written.

* `Datum.elements` — the items that a value is made of.
* `Datum.less` — which of two values is less, if they have an order.
* `Datum.sortFirst` — values in ascending order.
-/

namespace ScarbCrates

/-- Why data cannot be written. -/
inductive DatumFault
  /-- A dictionary whose keys are not all texts has no order. -/
  | keysNotText
  /-- A key that no text stands for. -/
  | keysNotScalar
  /-- Two values, given by their classes, have no order. -/
  | unordered (left right : String)
  /-- A value that changes cannot be a key. -/
  | unhashable (kind : String)
  /-- A value that is made of no items. -/
  | notIterable (kind : String)
  /-- A value of a class that has no JSON form. -/
  | unsupported
  /-- A text with stray bytes has no UTF-8 form. -/
  | unencodable (run : Text.StrayRun)
deriving DecidableEq, Repr

/-- A fault in words. -/
def DatumFault.message : DatumFault → String
  | .keysNotText => "Only dicts with str keys are supported when `order` is not `None`"
  | .keysNotScalar => "Only dicts with str-like or number-like keys are supported"
  | .unordered left right =>
    "'<' not supported between instances of '" ++ left ++ "' and '" ++ right ++ "'"
  | .unhashable kind => "unhashable type: '" ++ kind ++ "'"
  | .notIterable kind => "'" ++ kind ++ "' object is not iterable"
  | .unsupported => ""
  | .unencodable run => run.message

namespace Datum

/-- The items that a value is made of: the letters of a text, the numbers in a byte string, the
keys of a dictionary. -/
def elements : Datum → Except DatumFault (List Datum)
  | .text t => .ok (t.map fun letter => .text [letter])
  | .edition e => .ok ((Text.ofString e.name).map fun letter => .text [letter])
  | .bytes _ data => .ok (data.map fun b => .int b.toNat)
  | .sequence _ items => .ok items
  | .dict pairs => .ok (pairs.map Prod.fst)
  | .record "CfgSet" fields =>
    match fields with
    | [(_, .sequence _ items)] => .ok items
    | _ => .ok []
  | d => .error (.notIterable d.className)

/-! ## Which of two values is less -/

/-- Whether one number is less than another. -/
def lessNumber : Number → Number → Bool
  | .whole i, .whole j => i < j
  | .real x, .real y => x.lt y
  | .whole i, .real y =>
    if y.isNaN then false
    else if y.isInfinite then !y.isNegative
    else i * Binary64.denominator < y.numerator
  | .real x, .whole j =>
    if x.isNaN then false
    else if x.isInfinite then x.isNegative
    else x.numerator < j * Binary64.denominator

/-- Whether one text comes before another. -/
def lessText (s t : Text) : Bool := Text.compare s t == .lt

/-- Whether one byte string comes before another. -/
def lessBytes (a b : List UInt8) : Bool := decide (a < b)

mutual

/-- **Whether one value is less than another,** if the two have an order.  Lists are compared at
their first difference. -/
def less : Datum → Datum → Except DatumFault Bool
  | .sequence .list items, .sequence .list items' => lessItems items items'
  | .sequence .tuple items, .sequence .tuple items' => lessItems items items'
  | .record "Cfg" fields, .record "Cfg" fields' => lessFields fields fields'
  | .bytes _ data, .bytes _ data' => .ok (lessBytes data data')
  | .path p, .path q => .ok (Path.compare p q == .lt)
  | a, b =>
    match number? a, number? b, text? a, text? b with
    | some m, some n, _, _ => .ok (lessNumber m n)
    | _, _, some s, some t => .ok (lessText s t)
    | _, _, _, _ => .error (.unordered a.className b.className)

/-- Whether one list is less than another. -/
def lessItems : List Datum → List Datum → Except DatumFault Bool
  | _, [] => .ok false
  | [], _ :: _ => .ok true
  | a :: as, b :: bs => if eq a b then lessItems as bs else less a b

/-- Whether the fields of one flag are less than those of another. -/
def lessFields : List (String × Datum) → List (String × Datum) → Except DatumFault Bool
  | [], [] => .ok false
  | [], (_, b) :: _ => .error (.unordered "NoneType" b.className)
  | (_, a) :: _, [] => .error (.unordered a.className "NoneType")
  | (_, a) :: as, (_, b) :: bs => if eq a b then lessFields as bs else less a b

end

/-! ## Sorting -/

section Sorting

variable {α : Type} (lt : α → α → Except DatumFault Bool)

/-- Goes on while every element is less than the one before; `run` holds the elements so far, last
first. -/
def descend : (run : List α) → List α → Except DatumFault (List α × List α)
  | x :: run, y :: rest => do
    if ← lt y x then descend (y :: x :: run) rest else return (x :: run, y :: rest)
  | run, rest => .ok (run, rest)

/-- Goes on while no element is less than the one before; `run` holds the elements so far, last
first. -/
def ascend : (run : List α) → List α → Except DatumFault (List α × List α)
  | x :: run, y :: rest => do
    if ← lt y x then return (x :: run, y :: rest) else ascend (y :: x :: run) rest
  | run, rest => .ok (run, rest)

/-- The run of elements in front that ascends or descends, in ascending order, and the rest. -/
def leadingRun : List α → Except DatumFault (List α × List α)
  | x :: y :: rest => do
    if ← lt y x then descend lt [y, x] rest
    else
      let (run, rest) ← ascend lt [y, x] rest
      return (run.reverse, rest)
  | xs => .ok (xs, [])

/-- Puts an element after those that it is not less than, halving the elements in question at each
comparison. -/
def insertSorted (x : α) (xs : List α) : Except DatumFault (List α) :=
  match _h : xs.drop (xs.length / 2) with
  | [] => .ok [x]
  | y :: upper => do
    let lower := xs.take (xs.length / 2)
    if ← lt x y then
      let lower ← insertSorted x lower
      return lower ++ y :: upper
    else
      let upper ← insertSorted x upper
      return lower ++ y :: upper
termination_by xs.length
decreasing_by
  all_goals
    have := congrArg List.length _h
    simp at this ⊢
    omega

/-- **The elements in ascending order;** equal ones stay in the order in which they came.  Of
several pairs without an order, the one that is reported is the first that a search by halves comes
upon. -/
def sortBy (xs : List α) : Except DatumFault (List α) := do
  let (run, rest) ← leadingRun lt xs
  rest.foldlM (fun sorted x => insertSorted lt x sorted) run

end Sorting

/-- Values with something attached, in the order of the values. -/
def sortFirst {α : Type} (xs : List (Datum × α)) : Except DatumFault (List (Datum × α)) :=
  sortBy (fun x y => less x.1 y.1) xs

end Datum

end ScarbCrates
