import Mathlib.Data.List.Dedup
import Mathlib.Data.List.Perm.Subperm
import MemoryTraceTool.Lib.Grouping

/-!
# Grouping items when groups may be missing

Every new group of a grouping table is asked for, and a request may fail; the
item is then left out, and the next item of its key asks again.  The table
holds the groups of the items that are kept.
-/

namespace Grouping

variable {Item : Type u} {Key : Type v} {Group : Type w} [DecidableEq Key]

/-- A table, and how many groups have been asked for. -/
structure Asking (Group : Type w) where
  table : Table Group
  asked : Nat

/-- Put one item into the table, if the group that it needs can be had. -/
def tryUpsert (rule : Rule Item Key Group)
    (shape : ChainedTable.Shape Key Group) (capacity : Nat)
    (fails : Nat → Bool) (state : Asking Group) (item : Item) :
    Asking Group :=
  match ChainedTable.find shape state.table.chains (rule.key item) with
  | some _ =>
      { state with
        table :=
          { state.table with
            chains := ChainedTable.modify shape state.table.chains
              (rule.key item) fun group => rule.extend group item } }
  | none =>
      if state.table.count < capacity then
        if fails state.asked then { state with asked := state.asked + 1 }
        else
          { table :=
              { chains := ChainedTable.insert shape state.table.chains
                  (rule.start item)
                count := state.table.count + 1 }
            asked := state.asked + 1 }
      else state

def tryBuild (rule : Rule Item Key Group)
    (shape : ChainedTable.Shape Key Group) (capacity : Nat)
    (fails : Nat → Bool) (items : List Item) : Asking Group :=
  items.foldl (tryUpsert rule shape capacity fails)
    { table := .empty, asked := 0 }

/-! ## The items that are kept -/

structure Keeping (Item : Type u) where
  items : List Item
  asked : Nat

/-- No group is asked for: the key has one, or the table is full. -/
def Settled (rule : Rule Item Key Group) (capacity : Nat) (items : List Item)
    (key : Key) : Prop :=
  key ∈ admitted rule capacity items ∨
    capacity ≤ (admitted rule capacity items).length

instance (rule : Rule Item Key Group) (capacity : Nat) (items : List Item)
    (key : Key) : Decidable (Settled rule capacity items key) := by
  unfold Settled
  infer_instance

def keepItem (rule : Rule Item Key Group) (capacity : Nat)
    (fails : Nat → Bool) (keeping : Keeping Item) (item : Item) :
    Keeping Item :=
  if Settled rule capacity keeping.items (rule.key item) then
    { keeping with items := keeping.items ++ [item] }
  else if fails keeping.asked then
    { keeping with asked := keeping.asked + 1 }
  else
    { items := keeping.items ++ [item]
      asked := keeping.asked + 1 }

def keep (rule : Rule Item Key Group) (capacity : Nat) (fails : Nat → Bool)
    (items : List Item) : Keeping Item :=
  items.foldl (keepItem rule capacity fails) { items := [], asked := 0 }

variable {rule : Rule Item Key Group} {shape : ChainedTable.Shape Key Group}
  {capacity : Nat} {fails : Nat → Bool}

theorem keep_append (items more : List Item) :
    keep rule capacity fails (items ++ more) =
      more.foldl (keepItem rule capacity fails)
        (keep rule capacity fails items) :=
  List.foldl_append

theorem keep_concat (items : List Item) (item : Item) :
    keep rule capacity fails (items ++ [item]) =
      keepItem rule capacity fails (keep rule capacity fails items) item :=
  keep_append items [item]

theorem keepItem_sublist (rule : Rule Item Key Group) (capacity : Nat)
    (fails : Nat → Bool) (keeping : Keeping Item) (item : Item) :
    (keepItem rule capacity fails keeping item).items.Sublist
      (keeping.items ++ [item]) := by
  unfold keepItem
  split
  · exact List.Sublist.refl _
  · split
    · exact List.sublist_append_left _ _
    · exact List.Sublist.refl _

theorem keep_sublist (rule : Rule Item Key Group) (capacity : Nat)
    (fails : Nat → Bool) (items : List Item) :
    (keep rule capacity fails items).items.Sublist items := by
  induction items using List.reverseRecOn with
  | nil => exact List.Sublist.refl _
  | append_singleton items item induction =>
      rw [keep_concat]
      exact (keepItem_sublist rule capacity fails _ item).trans
        (induction.append (List.Sublist.refl [item]))

/-- What is kept later comes after what is kept already. -/
theorem foldl_keepItem_items (rule : Rule Item Key Group) (capacity : Nat)
    (fails : Nat → Bool) (keeping : Keeping Item) (items : List Item) :
    ∃ more, more.Sublist items ∧
      (items.foldl (keepItem rule capacity fails) keeping).items =
        keeping.items ++ more := by
  induction items generalizing keeping with
  | nil => exact ⟨[], List.Sublist.refl _, (List.append_nil _).symm⟩
  | cons item items induction =>
      rw [List.foldl_cons]
      obtain ⟨more, within, result⟩ :=
        induction (keepItem rule capacity fails keeping item)
      rw [result]
      unfold keepItem
      split
      · exact ⟨item :: more, within.cons_cons item, by simp⟩
      · split
        · exact ⟨more, within.cons item, rfl⟩
        · exact ⟨item :: more, within.cons_cons item, by simp⟩

/-- The table does with an item what its fate among the kept ones says. -/
theorem tryUpsert_eq {keeping : Keeping Item} {table : Table Group}
    (represents : Represents rule shape capacity keeping.items table)
    (built : table = build rule shape capacity keeping.items) (item : Item) :
    let later := keepItem rule capacity fails keeping item
    tryUpsert rule shape capacity fails
        { table, asked := keeping.asked } item =
      { table := build rule shape capacity later.items
        asked := later.asked } := by
  have known := represents.find_isSome_iff (rule.key item)
  have grown : build rule shape capacity (keeping.items ++ [item]) =
      upsert rule shape capacity table item := by
    rw [built, build, build, List.foldl_append]
    rfl
  unfold tryUpsert keepItem
  cases outcome : ChainedTable.find shape table.chains (rule.key item) with
  | some group =>
      rw [outcome] at known
      have settled : Settled rule capacity keeping.items (rule.key item) :=
        .inl (known.mp rfl)
      rw [upsert, outcome] at grown
      rw [if_pos settled]
      simp only [grown]
  | none =>
      rw [outcome] at known
      have absent : rule.key item ∉ admitted rule capacity keeping.items :=
        fun member => nomatch known.mpr member
      rw [upsert, outcome] at grown
      by_cases room : table.count < capacity
      · have unsettled :
            ¬ Settled rule capacity keeping.items (rule.key item) := by
          intro settled
          rcases settled with member | full
          · exact absent member
          · rw [← represents.count] at full
            exact Nat.not_le.mpr room full
        simp only [if_pos room] at grown
        simp only [if_neg unsettled, if_pos room]
        cases fails keeping.asked with
        | true => simp only [if_true, built]
        | false => simp [grown]
      · have settled : Settled rule capacity keeping.items (rule.key item) :=
          .inr (represents.count ▸ Nat.not_lt.mp room)
        simp only [if_neg room] at grown
        simp only [if_pos settled, if_neg room, grown]

/-- The table is that of the kept items. -/
theorem tryBuild_eq (fits : Fits rule shape) (items : List Item) :
    tryBuild rule shape capacity fails items =
      { table := build rule shape capacity
          (keep rule capacity fails items).items
        asked := (keep rule capacity fails items).asked } := by
  induction items using List.reverseRecOn with
  | nil => rfl
  | append_singleton items item induction =>
      rw [tryBuild] at induction
      rw [keep_concat, tryBuild, List.foldl_append, induction]
      exact tryUpsert_eq (represents_build fits _) rfl item

/-! ## When all items are kept -/

theorem keepItem_keeps_iff {keeping : Keeping Item} {item : Item} :
    (keepItem rule capacity fails keeping item).items =
        keeping.items ++ [item] ↔
      (fails keeping.asked = true →
        Settled rule capacity keeping.items (rule.key item)) := by
  unfold keepItem
  split
  · rename_i settled
    exact iff_of_true rfl fun _ => settled
  · rename_i unsettled
    cases fails keeping.asked with
    | true =>
        constructor
        · intro same
          have lengths := congrArg List.length same
          simp at lengths
        · exact fun settles => absurd (settles rfl) unsettled
    | false => exact iff_of_true rfl fun impossible => nomatch impossible

theorem length_admitted_concat (items : List Item) (item : Item) :
    (admitted rule capacity (items ++ [item])).length =
      if Settled rule capacity items (rule.key item) then
        (admitted rule capacity items).length
      else (admitted rule capacity items).length + 1 := by
  rw [admitted_concat, admitKey]
  by_cases settled : Settled rule capacity items (rule.key item)
  · rw [if_pos settled]
    exact congrArg List.length (if_pos settled)
  · rw [if_neg settled, if_neg (show ¬ (_ ∨ _) from settled),
      List.length_append, List.length_singleton]

/-- When the last item is kept after all before it, so were these. -/
theorem keep_init {items : List Item} {item : Item}
    (all : (keep rule capacity fails (items ++ [item])).items =
      items ++ [item]) :
    (keep rule capacity fails items).items = items := by
  have fewer := keep_sublist rule capacity fails items
  have one := keepItem_sublist rule capacity fails
    (keep rule capacity fails items) item
  rw [← keep_concat, all] at one
  apply fewer.eq_of_length_le
  have lengths := one.length_le
  simp only [List.length_append, List.length_singleton] at lengths
  omega

theorem keep_asked {items : List Item}
    (all : (keep rule capacity fails items).items = items) :
    (keep rule capacity fails items).asked =
      (admitted rule capacity items).length := by
  induction items using List.reverseRecOn with
  | nil => rfl
  | append_singleton items item induction =>
      have kept := keep_init all
      have asked := induction kept
      rw [keep_concat] at all ⊢
      rw [length_admitted_concat]
      unfold keepItem at all ⊢
      rw [kept] at all ⊢
      by_cases settled : Settled rule capacity items (rule.key item)
      · rw [if_pos settled, if_pos settled]
        exact asked
      · rw [if_neg settled] at all ⊢
        rw [if_neg settled]
        split
        · exact congrArg (· + 1) asked
        · exact congrArg (· + 1) asked

/-- All items are kept exactly if the groups that they need can be had. -/
theorem keep_eq_self_iff (items : List Item) :
    (keep rule capacity fails items).items = items ↔
      ∀ request < (admitted rule capacity items).length,
        fails request = false := by
  induction items using List.reverseRecOn with
  | nil => exact iff_of_true rfl fun request below => nomatch below
  | append_singleton items item induction =>
      rw [length_admitted_concat]
      constructor
      · intro all
        have kept := keep_init all
        have granted := induction.mp kept
        have last : (keepItem rule capacity fails
            (keep rule capacity fails items) item).items =
              (keep rule capacity fails items).items ++ [item] := by
          rw [← keep_concat, all, kept]
        have lasts := keepItem_keeps_iff.mp last
        rw [keep_asked kept, kept] at lasts
        split
        · exact granted
        · rename_i unsettled
          intro request below
          rcases Nat.lt_succ_iff_lt_or_eq.mp below with earlier | last
          · exact granted request earlier
          · rw [last]
            exact Bool.eq_false_iff.mpr fun failed =>
              unsettled (lasts failed)
      · intro granted
        have kept : (keep rule capacity fails items).items = items := by
          apply induction.mpr
          intro request below
          apply granted request
          split
          · exact below
          · exact Nat.lt_succ_of_lt below
        have last : (keepItem rule capacity fails
            (keep rule capacity fails items) item).items =
              (keep rule capacity fails items).items ++ [item] := by
          apply keepItem_keeps_iff.mpr
          rw [keep_asked kept, kept]
          intro failed
          by_contra unsettled
          rw [if_neg unsettled] at granted
          rw [granted _ (Nat.lt_succ_self _)] at failed
          cases failed
        rw [keep_concat, last, kept]

/-! ## Items that are left out -/

theorem not_settled_nil (room : 0 < capacity) (key : Key) :
    ¬ Settled rule capacity [] key := by
  intro settled
  rcases settled with member | full
  · cases member
  · exact Nat.not_le.mpr room full

/-- While every request fails no item is kept. -/
theorem keep_none {items : List Item} (room : 0 < capacity)
    (failing : ∀ request < items.length, fails request = true) :
    keep rule capacity fails items =
      { items := [], asked := items.length } := by
  induction items using List.reverseRecOn with
  | nil => rfl
  | append_singleton items item induction =>
      rw [List.length_append, List.length_singleton] at failing ⊢
      have earlier := induction fun request below =>
        failing request (Nat.lt_succ_of_lt below)
      rw [keep_concat, earlier, keepItem, if_neg (not_settled_nil room _),
        if_pos (failing _ (Nat.lt_succ_self _))]

theorem keep_first {before rest : List Item} {item : Item}
    (room : 0 < capacity)
    (failing : ∀ request < before.length, fails request = true)
    (granted : fails before.length = false) :
    ∃ more, more.Sublist rest ∧
      (keep rule capacity fails (before ++ item :: rest)).items =
        item :: more := by
  rw [keep_append, keep_none room failing, List.foldl_cons, keepItem,
    if_neg (not_settled_nil room _)]
  dsimp only
  rw [granted]
  exact foldl_keepItem_items rule capacity fails _ rest

theorem admitted_of_nodup {items : List Item}
    (distinct : (items.map rule.key).Nodup)
    (room : items.length ≤ capacity) :
    (admitted rule capacity items).Perm (items.map rule.key) := by
  rw [List.perm_ext_iff_of_nodup (nodup_admitted items) distinct]
  intro key
  apply mem_admitted_iff
  rw [distinct.dedup, List.length_map]
  exact room

/-- The first request that fails loses its item. -/
theorem keep_drops {before rest : List Item} {item : Item}
    (distinct : (before.map rule.key).Nodup)
    (new : rule.key item ∉ before.map rule.key)
    (room : before.length < capacity)
    (granted : ∀ request < before.length, fails request = false)
    (failing : fails before.length = true) :
    ∃ more, more.Sublist rest ∧
      (keep rule capacity fails (before ++ item :: rest)).items =
        before ++ more := by
  have keys := admitted_of_nodup distinct (Nat.le_of_lt room)
  have many : (admitted rule capacity before).length = before.length := by
    rw [keys.length_eq, List.length_map]
  have all : (keep rule capacity fails before).items = before := by
    rw [keep_eq_self_iff, many]
    exact granted
  have asked := keep_asked all
  rw [many] at asked
  have unsettled : ¬ Settled rule capacity before (rule.key item) := by
    intro settled
    rcases settled with member | full
    · exact new (keys.mem_iff.mp member)
    · rw [many] at full
      exact Nat.not_le.mpr room full
  obtain ⟨more, within, result⟩ := foldl_keepItem_items rule capacity fails
    (keepItem rule capacity fails (keep rule capacity fails before) item) rest
  refine ⟨more, within, ?_⟩
  rw [keep_append, List.foldl_cons, result, keepItem, all, if_neg unsettled,
    asked, if_pos failing]

omit [DecidableEq Key] in
theorem exists_map_eq {items : List Item} {keys : List Key}
    (occur : keys ⊆ items.map rule.key) :
    ∃ chosen, chosen.map rule.key = keys ∧ chosen ⊆ items := by
  induction keys with
  | nil => exact ⟨[], rfl, List.nil_subset _⟩
  | cons key keys induction =>
      rw [List.cons_subset] at occur
      obtain ⟨item, member, rfl⟩ := List.mem_map.mp occur.1
      obtain ⟨chosen, same, within⟩ := induction occur.2
      refine ⟨item :: chosen, ?_, ?_⟩
      · rw [List.map_cons, same]
      · exact List.cons_subset.mpr ⟨member, within⟩

/-- An item can be moved behind items of as many other keys as there are. -/
theorem exists_perm_behind (rule : Rule Item Key Group)
    {items : List Item} {item : Item} (member : item ∈ items) {count : Nat}
    (fewer : count < (items.map rule.key).dedup.length) :
    ∃ before rest, items.Perm (before ++ item :: rest) ∧
      before.length = count ∧ (before.map rule.key).Nodup ∧
      rule.key item ∉ before.map rule.key := by
  have occurs : rule.key item ∈ (items.map rule.key).dedup :=
    List.mem_dedup.mpr (List.mem_map_of_mem member)
  have distinct := List.nodup_dedup (items.map rule.key)
  have others : ((items.map rule.key).dedup.erase (rule.key item)).take
      count ⊆ items.map rule.key := by
    intro key taken
    exact List.mem_dedup.mp (List.mem_of_mem_erase (List.mem_of_mem_take taken))
  obtain ⟨before, keys, within⟩ := exists_map_eq others
  have separate : (before.map rule.key).Nodup := by
    rw [keys]
    exact (distinct.erase _).sublist (List.take_sublist _ _)
  have new : rule.key item ∉ before.map rule.key := by
    rw [keys]
    intro taken
    exact (distinct.mem_erase_iff.mp (List.mem_of_mem_take taken)).1 rfl
  have chosen : (item :: before).Subperm items := by
    apply List.Nodup.subperm
    · rw [List.nodup_cons]
      exact ⟨fun again => new (List.mem_map_of_mem again),
        List.Nodup.of_map _ separate⟩
    · exact List.cons_subset.mpr ⟨member, within⟩
  obtain ⟨first, arranged, sublist⟩ := chosen
  obtain ⟨rest, permuted⟩ := sublist.exists_perm_append
  refine ⟨before, rest, ?_, ?_, separate, new⟩
  · exact (permuted.trans (arranged.append_right rest)).trans
      List.perm_middle.symm
  · rw [← List.length_map rule.key, keys, List.length_take,
      List.length_erase_of_mem occurs]
    omega

end Grouping
