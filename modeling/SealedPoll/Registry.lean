import SealedPoll.PollKey

/-!
# Registries of active polls

* `Registry` : the private keys of the active polls, at most one for an id; `Registry.get?` is the
  view of it as a map;
* `Registry.erase`, `Registry.insertNew` : a key dropped, and a key put in where there is none
  (`Registry.get?_erase`, `Registry.get?_insertNew`);
* `Registry.create` : a new poll, whose key comes from a generator that may use the registry itself.
  The id is looked up before the generator runs and once more before its key goes in;
* `Registry.take`, `Registry.remove` : the key handed out for good, or dropped.
-/

namespace SealedPoll

/-- The private keys of the active polls. -/
structure Registry where
  entries : List (String × PollKey)
  distinct : entries.Pairwise fun a b => a.1 ≠ b.1
deriving DecidableEq

namespace Registry

def empty : Registry := ⟨[], List.Pairwise.nil⟩

/-- The key of a poll, if it is active. -/
def get? (r : Registry) (id : String) : Option PollKey :=
  (r.entries.find? fun entry => entry.1 = id).map Prod.snd

def contains (r : Registry) (id : String) : Bool := (r.get? id).isSome

def size (r : Registry) : Nat := r.entries.length

def isEmpty (r : Registry) : Bool := r.entries.isEmpty

/-- The active ones among some polls. -/
def held (r : Registry) (ids : List String) : List String := ids.filter r.contains

def erase (r : Registry) (id : String) : Registry :=
  ⟨r.entries.filter fun entry => entry.1 ≠ id, r.distinct.filter _⟩

theorem get?_eq_none_iff {r : Registry} {id : String} :
    r.get? id = none ↔ ∀ entry ∈ r.entries, entry.1 ≠ id := by
  simp [get?]

theorem contains_eq_false_iff {r : Registry} {id : String} :
    r.contains id = false ↔ ∀ entry ∈ r.entries, entry.1 ≠ id := by
  rw [contains, Option.isSome_eq_false_iff, Option.isNone_iff_eq_none, get?_eq_none_iff]

/-- The registry with the key of a poll that is not active; an active poll keeps its key. -/
def insertNew (r : Registry) (id : String) (key : PollKey) : Registry :=
  if h : r.contains id then r
  else
    have habsent := contains_eq_false_iff.1 (Bool.eq_false_iff.2 h)
    ⟨(id, key) :: r.entries,
      List.pairwise_cons.2 ⟨fun entry hentry => (habsent entry hentry).symm, r.distinct⟩⟩

@[simp] theorem get?_empty (id : String) : empty.get? id = none := rfl

theorem get?_erase (r : Registry) (id other : String) :
    (r.erase id).get? other = if other = id then none else r.get? other := by
  split
  · next h => subst h; simp [get?_eq_none_iff, erase]
  · next h =>
    simp only [get?, erase, List.find?_filter]
    congr 2
    funext entry
    by_cases he : entry.1 = other <;> simp [he, h]

theorem get?_erase_self (r : Registry) (id : String) : (r.erase id).get? id = none := by
  rw [get?_erase, if_pos rfl]

theorem get?_insertNew {r : Registry} {id : String} (h : r.contains id = false) (key : PollKey)
    (other : String) :
    (r.insertNew id key).get? other = if other = id then some key else r.get? other := by
  unfold insertNew
  rw [dif_neg (by simp [h])]
  by_cases ho : other = id
  · subst ho; simp [get?]
  · simp [get?, ho, Ne.symm ho]

theorem get?_insertNew_self {r : Registry} {id : String} (h : r.contains id = false)
    (key : PollKey) : (r.insertNew id key).get? id = some key := by
  rw [get?_insertNew h, if_pos rfl]

/-- What the creation of a poll comes to: the copy of its key, the registry, and what the generator
left behind if it was called. -/
structure Created (α : Type) where
  outcome : Except Error PollKey
  registry : Registry
  left : Option α

/-- A new poll with the key that `generate` makes out of the registry. The generator is not called
for an active poll, and its key is dropped if the poll has become active meanwhile. -/
def create {α : Type} (r : Registry) (id : String)
    (generate : Registry → Except Error PollKey × Registry × α) : Created α :=
  if r.contains id then ⟨.error (.pollAlreadyActive id), r, none⟩
  else match generate r with
    | (.error e, r, left) => ⟨.error e, r, some left⟩
    | (.ok key, r, left) =>
      if r.contains id then ⟨.error (.pollAlreadyActive id), r, some left⟩
      else ⟨.ok key, r.insertNew id key, some left⟩

/-- The key of a poll, which is no longer active afterwards. -/
def take (r : Registry) (id : String) : Except Error PollKey × Registry :=
  match r.get? id with
  | some key => (.ok key, r.erase id)
  | none => (.error (.pollNotFound id), r)

/-- Whether there was a poll to drop, and the registry without it. -/
def remove (r : Registry) (id : String) : Bool × Registry := (r.contains id, r.erase id)

end Registry

end SealedPoll
