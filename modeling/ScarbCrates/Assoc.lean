/-!
# Association lists in order of insertion

A table as the list of its entries in the order in which their keys were first put in.  Putting a
key again changes its value and keeps its place; *keeping* a key leaves both alone.

* `Assoc.put`, `Assoc.ofList` — the last value of a key counts.
* `Assoc.keep` — the first value of a key counts.
-/

namespace ScarbCrates

namespace Assoc

variable {κ α : Type} [DecidableEq κ]

/-- The table after an entry; a key that is there already keeps its place and takes the new
value. -/
def put (entries : List (κ × α)) (key : κ) (a : α) : List (κ × α) :=
  match entries with
  | [] => [(key, a)]
  | (k, old) :: rest => if k = key then (k, a) :: rest else (k, old) :: put rest key a

/-- The table of some entries; of several values of a key the last counts. -/
def ofList (entries : List (κ × α)) : List (κ × α) :=
  entries.foldl (fun t e => put t e.1 e.2) []

/-- The value of a key. -/
def get? (entries : List (κ × α)) (key : κ) : Option α :=
  match entries with
  | [] => none
  | (k, a) :: rest => if k = key then some a else get? rest key

/-- Whether a key has a value. -/
def has (entries : List (κ × α)) (key : κ) : Bool := (get? entries key).isSome

/-- The table with an entry for a key that has none; a key that has one is left alone. -/
def keep (entries : List (κ × α)) (key : κ) (a : α) : List (κ × α) :=
  if has entries key then entries else entries ++ [(key, a)]

/-- The keys in their order. -/
def keys (entries : List (κ × α)) : List κ := entries.map Prod.fst

/-! ## What the operations do to a look-up -/

@[simp]
theorem get?_nil (key : κ) : get? ([] : List (κ × α)) key = none := rfl

@[simp]
theorem get?_put_self (entries : List (κ × α)) (key : κ) (a : α) :
    get? (put entries key a) key = some a := by
  induction entries with
  | nil => simp [put, get?]
  | cons e rest ih =>
    obtain ⟨k, old⟩ := e
    by_cases h : k = key
    · simp [put, get?, h]
    · simp [put, get?, h, ih]

/-- Putting one key leaves the values of all others alone. -/
theorem get?_put_of_ne (entries : List (κ × α)) {key other : κ} (a : α) (h : other ≠ key) :
    get? (put entries key a) other = get? entries other := by
  induction entries with
  | nil => simp [put, get?, h.symm]
  | cons e rest ih =>
    obtain ⟨k, old⟩ := e
    by_cases hk : k = key
    · simp [put, get?, hk, h.symm]
    · simp [put, get?, hk, ih]

/-- A look-up in two tables, one after the other. -/
theorem get?_append (entries more : List (κ × α)) (key : κ) :
    get? (entries ++ more) key = (get? entries key).or (get? more key) := by
  induction entries with
  | nil => simp
  | cons e rest ih =>
    obtain ⟨k, old⟩ := e
    by_cases h : k = key <;> simp [get?, h, ih]

/-- A key that is kept has the value that it had, or else the new one. -/
theorem get?_keep (entries : List (κ × α)) (key other : κ) (a : α) :
    get? (keep entries key a) other =
      (get? entries other).or (if key = other then some a else none) := by
  by_cases h : has entries key = true
  · rw [keep, if_pos h]
    by_cases hk : key = other
    · subst hk
      obtain ⟨b, hb⟩ := Option.isSome_iff_exists.1 h
      simp [hb]
    · simp [hk]
  · rw [keep, if_neg h, get?_append]
    simp [get?]

end Assoc

end ScarbCrates
