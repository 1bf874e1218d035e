/-!
# Named entries in order

A list of named entries remembers the order in which names were first written.
Writing a name again keeps its place and replaces what it stands for.
-/

namespace SearchClient

abbrev Entries (α : Type) := List (String × α)

namespace Entries

variable {α : Type}

def get? (entries : Entries α) (name : String) : Option α := entries.lookup name

def contains (entries : Entries α) (name : String) : Bool := (entries.get? name).isSome

def keys (entries : Entries α) : List String := entries.map (·.1)

def set : Entries α → String → α → Entries α
  | [], name, a => [(name, a)]
  | (key, old) :: rest, name, a =>
      if key = name then (key, a) :: rest else (key, old) :: set rest name a

def setAll (entries more : Entries α) : Entries α :=
  more.foldl (fun acc entry => acc.set entry.1 entry.2) entries

@[simp] theorem keys_nil : keys ([] : Entries α) = [] := rfl

@[simp] theorem keys_cons (key : String) (a : α) (rest : Entries α) :
    keys ((key, a) :: rest) = key :: keys rest := rfl

theorem keys_set (entries : Entries α) (name : String) (a : α) :
    keys (entries.set name a) =
      if name ∈ keys entries then keys entries else keys entries ++ [name] := by
  induction entries with
  | nil => simp [set]
  | cons entry rest ih =>
      obtain ⟨key, old⟩ := entry
      by_cases h : key = name
      · simp [set, h]
      · have h' : name ≠ key := fun e => h e.symm
        simp only [set, if_neg h, keys_cons, ih, List.mem_cons, h', false_or]
        split <;> simp

@[simp] theorem get?_nil (name : String) : get? ([] : Entries α) name = none := rfl

theorem get?_cons (key : String) (a : α) (rest : Entries α) (name : String) :
    get? ((key, a) :: rest) name = if name = key then some a else get? rest name := by
  by_cases h : name = key
  · simp [get?, h]
  · have h' : (name == key) = false := by simpa using h
    simp [get?, List.lookup_cons, h, h']

theorem get?_set (entries : Entries α) (name other : String) (a : α) :
    get? (entries.set name a) other =
      if other = name then some a else get? entries other := by
  induction entries with
  | nil => simp [set, get?_cons]
  | cons entry rest ih =>
      obtain ⟨key, old⟩ := entry
      by_cases h : key = name
      · subst h
        simp only [set, if_true, get?_cons]
        split <;> rfl
      · simp only [set, if_neg h, get?_cons, ih]
        by_cases h' : other = key
        · subst h'
          simp [h]
        · simp [h']

end Entries

end SearchClient
