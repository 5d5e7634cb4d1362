import Mathlib.Data.List.Induction

/-!
# Work that is given to one of several parties

Items are numbered as they come, and each of them is for one party.  What the parties have taken on
is a list of numbers with parties, in whatever order they came to it.
-/

namespace CloudflareBlog.Lib.Dispatch

variable {Item Party : Type} {owner : Item → Party} {items : List Item}
  {taken : List (Nat × Party)} {number : Nat}

/-- Every item with the party that it is for. -/
def assigned (owner : Item → Party) (items : List Item) : List (Nat × Party) :=
  items.mapIdx fun number item => (number, owner item)

/-- The parties that have taken on an item. -/
def handlers (taken : List (Nat × Party)) (number : Nat) : List Party :=
  (taken.filter fun entry => entry.1 = number).map Prod.snd

/-- Every item has been taken on once, by the party that it is for. -/
def Dispatched (owner : Item → Party) (items : List Item) (taken : List (Nat × Party)) : Prop :=
  taken.Perm (assigned owner items)

theorem handlers_append (first second : List (Nat × Party)) (number : Nat) :
    handlers (first ++ second) number = handlers first number ++ handlers second number := by
  rw [handlers, List.filter_append, List.map_append, ← handlers, ← handlers]

theorem handlers_singleton (number other : Nat) (party : Party) :
    handlers [(other, party)] number = if other = number then [party] else [] := by
  by_cases same : other = number <;> simp [handlers, same]

theorem handlers_perm {other : List (Nat × Party)} (perm : taken.Perm other) (number : Nat) :
    (handlers taken number).Perm (handlers other number) :=
  (perm.filter _).map _

/-- The first party to take on an item. -/
theorem handlers_insert {before behind : List (Nat × Party)}
    (untaken : handlers (before ++ behind) number = []) (party : Party) :
    handlers (before ++ (number, party) :: behind) number = [party] := by
  rw [handlers_append, List.append_eq_nil_iff] at untaken
  rw [List.append_cons, handlers_append, handlers_append, handlers_singleton, if_pos rfl,
    untaken.1, untaken.2]
  rfl

theorem assigned_concat (owner : Item → Party) (items : List Item) (item : Item) :
    assigned owner (items ++ [item]) = assigned owner items ++ [(items.length, owner item)] :=
  List.mapIdx_concat

theorem handlers_assigned (owner : Item → Party) (items : List Item) (number : Nat) :
    handlers (assigned owner items) number = (items[number]?.map owner).toList := by
  induction items using List.reverseRecOn with
  | nil => rfl
  | append_singleton items item inductionHypothesis =>
    rw [assigned_concat, handlers_append, inductionHypothesis, handlers_singleton]
    rcases Nat.lt_trichotomy number items.length with before | here | behind
    · rw [if_neg (Nat.ne_of_gt before), List.append_nil, List.getElem?_append_left before]
    · rw [if_pos here.symm, here, List.getElem?_concat_length, List.getElem?_eq_none (Nat.le_refl _)]
      rfl
    · rw [if_neg (Nat.ne_of_lt behind), List.append_nil,
        List.getElem?_eq_none (Nat.le_of_lt behind),
        List.getElem?_eq_none (by rw [List.length_append]; exact behind)]

theorem Dispatched.start : Dispatched owner [] [] := .nil

/-- One more item, and its party with it. -/
theorem Dispatched.take {item : Item} {before behind : List (Nat × Party)}
    (dispatched : Dispatched owner items (before ++ behind)) :
    Dispatched owner (items ++ [item]) (before ++ (items.length, owner item) :: behind) := by
  rw [Dispatched, assigned_concat]
  exact List.perm_middle.trans ((dispatched.cons _).trans (List.perm_append_singleton _ _).symm)

/-- The one party that has taken on an item. -/
theorem Dispatched.handlers_eq (dispatched : Dispatched owner items taken) {item : Item}
    (isItem : items[number]? = some item) : handlers taken number = [owner item] := by
  have perm := handlers_perm dispatched number
  rw [handlers_assigned, isItem] at perm
  exact List.perm_singleton.mp perm

/-- Nobody has taken on what has not come yet. -/
theorem Dispatched.handlers_next (dispatched : Dispatched owner items taken) :
    handlers taken items.length = [] := by
  have perm := handlers_perm dispatched items.length
  rw [handlers_assigned, List.getElem?_eq_none (Nat.le_refl _)] at perm
  exact List.perm_nil.mp perm

end CloudflareBlog.Lib.Dispatch
