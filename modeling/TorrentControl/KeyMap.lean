/-! # Maps with text keys

A map is the list of its entries in increasing order of their keys, each key once. Texts are ordered
by code point, which is the order of their UTF-8 bytes. The operations take any list of entries;
those that build a map keep it ordered. -/

namespace TorrentControl

abbrev KeyMap (α : Type) := List (String × α)

namespace KeyMap

variable {α : Type}

/-- The keys increase strictly. -/
def Ordered (m : KeyMap α) : Prop :=
  (m.map Prod.fst).Pairwise (· < ·)

def keys (m : KeyMap α) : List String :=
  m.map Prod.fst

def find? (m : KeyMap α) (key : String) : Option α :=
  (List.find? (fun entry => entry.1 == key) m).map Prod.snd

def contains (m : KeyMap α) (key : String) : Bool :=
  m.any fun entry => entry.1 == key

/-- Puts a value under a key and forgets the value that was there. -/
def insert : KeyMap α → String → α → KeyMap α
  | [], key, value => [(key, value)]
  | entry :: rest, key, value =>
    if key < entry.1 then (key, value) :: entry :: rest
    else if key = entry.1 then (key, value) :: rest
    else entry :: insert rest key value

def erase (m : KeyMap α) (key : String) : KeyMap α :=
  m.filter fun entry => entry.1 != key

/-- Each key gets the value that comes last for it in the list. -/
def ofList (entries : List (String × α)) : KeyMap α :=
  entries.foldl (fun m entry => insert m entry.1 entry.2) []

/-! ## Looking up after a change -/

theorem contains_iff_find? (m : KeyMap α) (key : String) :
    contains m key = (find? m key).isSome := by
  induction m with
  | nil => rfl
  | cons entry rest ih =>
    simp only [contains, find?, List.any_cons, List.find?_cons] at ih ⊢
    cases h : entry.1 == key with
    | true => simp
    | false => simpa using ih

theorem find?_cons (entry : String × α) (rest : KeyMap α) (key : String) :
    find? (entry :: rest) key = if entry.1 = key then some entry.2 else find? rest key := by
  by_cases h : entry.1 = key <;> simp [find?, h]

theorem find?_insert (m : KeyMap α) (key other : String) (value : α) :
    find? (insert m key value) other = if key = other then some value else find? m other := by
  induction m with
  | nil => simp [insert, find?]
  | cons entry rest ih =>
    simp only [insert]
    split
    · simp [find?_cons]
    · split
      · rename_i same
        subst same
        by_cases h : entry.1 = other <;> simp [find?_cons, h]
      · rename_i differs
        rw [find?_cons, ih, find?_cons]
        by_cases h : entry.1 = other
        · have : ¬ key = other := fun e => differs (e.trans h.symm)
          simp [h, this]
        · simp [h]

theorem find?_erase (m : KeyMap α) (key other : String) :
    find? (erase m key) other = if key = other then none else find? m other := by
  induction m with
  | nil => simp [erase, find?]
  | cons entry rest ih =>
    simp only [erase, List.filter_cons] at ih ⊢
    by_cases h : entry.1 = key
    · by_cases ho : key = other <;> simp_all [find?_cons]
    · by_cases ho : entry.1 = other
      · have : ¬ key = other := fun e => h (ho.trans e.symm)
        simp_all [find?_cons]
      · simp_all [find?_cons]

end KeyMap

end TorrentControl
