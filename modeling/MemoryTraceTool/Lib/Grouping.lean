import Mathlib.Algebra.BigOperators.Group.List.Basic
import Mathlib.Data.List.Dedup
import Mathlib.Data.List.Induction
import Mathlib.Data.List.Perm.Subperm
import MemoryTraceTool.Lib.ChainedTable

/-!
# Grouping items by key in a table of bounded size

The items of a list are folded into one group per key, kept in a chained hash
table.  The table takes in a bounded number of keys; the items of every
further key are dropped.
-/

namespace Grouping

/-- How items fall into groups: the first item of a key starts its group, and
each later one extends it. -/
structure Rule (Item : Type u) (Key : Type v) (Group : Type w) where
  key : Item → Key
  start : Item → Group
  extend : Group → Item → Group

/-- Groups in chains, and how many there are. -/
structure Table (Group : Type w) where
  chains : Nat → List Group
  count : Nat

def Table.empty {Group : Type w} : Table Group :=
  { chains := fun _ => []
    count := 0 }

variable {Item : Type u} {Key : Type v} {Group : Type w} [DecidableEq Key]

/-- Put one item into the table. -/
def upsert (rule : Rule Item Key Group)
    (shape : ChainedTable.Shape Key Group) (capacity : Nat)
    (table : Table Group) (item : Item) : Table Group :=
  match ChainedTable.find shape table.chains (rule.key item) with
  | some _ =>
      { table with
        chains := ChainedTable.modify shape table.chains (rule.key item)
          fun group => rule.extend group item }
  | none =>
      if table.count < capacity then
        { chains := ChainedTable.insert shape table.chains (rule.start item)
          count := table.count + 1 }
      else table

/-- All items one after the other. -/
def build (rule : Rule Item Key Group)
    (shape : ChainedTable.Shape Key Group) (capacity : Nat)
    (items : List Item) : Table Group :=
  items.foldl (upsert rule shape capacity) .empty

/-! ## What the table stands for -/

/-- The group that items of one key build up in their order. -/
def summary (rule : Rule Item Key Group) : List Item → Option Group
  | [] => none
  | item :: rest => some (rest.foldl rule.extend (rule.start item))

/-- The items of a key in their order. -/
def ofKey (rule : Rule Item Key Group) (key : Key) (items : List Item) :
    List Item :=
  items.filter fun item => rule.key item = key

def admitKey (capacity : Nat) (keys : List Key) (key : Key) : List Key :=
  if key ∈ keys ∨ capacity ≤ keys.length then keys else keys ++ [key]

/-- The first `capacity` distinct keys, in the order of their first items. -/
def admitted (rule : Rule Item Key Group) (capacity : Nat)
    (items : List Item) : List Key :=
  items.foldl (fun keys item => admitKey capacity keys (rule.key item)) []

variable {rule : Rule Item Key Group} {shape : ChainedTable.Shape Key Group}
  {capacity : Nat}

/-- The groups of the rule carry the keys of their items. -/
structure Fits (rule : Rule Item Key Group)
    (shape : ChainedTable.Shape Key Group) : Prop where
  start : ∀ item, shape.key (rule.start item) = rule.key item
  extend : ∀ item group,
    shape.key (rule.extend group item) = shape.key group

omit [DecidableEq Key] in
theorem summary_concat (items : List Item) (item : Item) :
    summary rule (items ++ [item]) =
      some (match summary rule items with
        | none => rule.start item
        | some group => rule.extend group item) := by
  cases items with
  | nil => rfl
  | cons first rest => simp [summary]

omit [DecidableEq Key] in
theorem summary_eq_none_iff {items : List Item} :
    summary rule items = none ↔ items = [] := by
  cases items <;> simp [summary]

theorem ofKey_concat (key : Key) (items : List Item) (item : Item) :
    ofKey rule key (items ++ [item]) =
      if rule.key item = key then ofKey rule key items ++ [item]
      else ofKey rule key items := by
  unfold ofKey
  by_cases same : rule.key item = key <;> simp [same]

theorem ofKey_eq_nil_iff {key : Key} {items : List Item} :
    ofKey rule key items = [] ↔ key ∉ items.map rule.key := by
  simp [ofKey]

theorem admitted_concat (items : List Item) (item : Item) :
    admitted rule capacity (items ++ [item]) =
      admitKey capacity (admitted rule capacity items) (rule.key item) := by
  simp [admitted]

theorem admitted_concat_known {items : List Item} {item : Item}
    (member : rule.key item ∈ admitted rule capacity items) :
    admitted rule capacity (items ++ [item]) =
      admitted rule capacity items := by
  rw [admitted_concat, admitKey, if_pos (.inl member)]

theorem admitted_concat_full {items : List Item} {item : Item}
    (full : capacity ≤ (admitted rule capacity items).length) :
    admitted rule capacity (items ++ [item]) =
      admitted rule capacity items := by
  rw [admitted_concat, admitKey, if_pos (.inr full)]

theorem admitted_concat_new {items : List Item} {item : Item}
    (absent : rule.key item ∉ admitted rule capacity items)
    (room : (admitted rule capacity items).length < capacity) :
    admitted rule capacity (items ++ [item]) =
      admitted rule capacity items ++ [rule.key item] := by
  rw [admitted_concat, admitKey, if_neg]
  exact not_or.mpr ⟨absent, Nat.not_le.mpr room⟩

theorem mem_admitKey {keys : List Key} {key other : Key}
    (member : other ∈ admitKey capacity keys key) :
    other ∈ keys ∨ other = key := by
  unfold admitKey at member
  split at member
  · exact .inl member
  · simpa using member

theorem admitKey_mono {keys : List Key} {key other : Key}
    (member : other ∈ keys) : other ∈ admitKey capacity keys key := by
  unfold admitKey
  split
  · exact member
  · exact List.mem_append_left _ member

theorem length_admitKey {keys : List Key} {key : Key} :
    keys.length ≤ (admitKey capacity keys key).length := by
  unfold admitKey
  split
  · exact Nat.le_refl _
  · simp

theorem length_admitted_le (items : List Item) :
    (admitted rule capacity items).length ≤ capacity := by
  induction items using List.reverseRecOn with
  | nil => exact Nat.zero_le _
  | append_singleton items item induction =>
      rw [admitted_concat, admitKey]
      split
      · exact induction
      · rename_i fresh
        rw [not_or] at fresh
        rw [List.length_append, List.length_singleton]
        omega

theorem nodup_admitted (items : List Item) :
    (admitted rule capacity items).Nodup := by
  induction items using List.reverseRecOn with
  | nil => exact List.nodup_nil
  | append_singleton items item induction =>
      rw [admitted_concat]
      unfold admitKey
      split
      · exact induction
      · rename_i fresh
        rw [not_or] at fresh
        rw [List.nodup_append]
        refine ⟨induction, List.nodup_singleton _, ?_⟩
        intro key member other single same
        rw [List.mem_singleton] at single
        subst single
        subst same
        exact fresh.1 member

theorem mem_keys_of_admitted {items : List Item} {key : Key}
    (member : key ∈ admitted rule capacity items) :
    key ∈ items.map rule.key := by
  induction items using List.reverseRecOn with
  | nil => cases member
  | append_singleton items item induction =>
      rw [admitted_concat] at member
      rw [List.map_append, List.mem_append]
      rcases mem_admitKey member with earlier | same
      · exact .inl (induction earlier)
      · exact .inr (by simp [same])

theorem admitted_or_full (capacity : Nat) {items : List Item} {key : Key}
    (seen : key ∈ items.map rule.key) :
    key ∈ admitted rule capacity items ∨
      capacity ≤ (admitted rule capacity items).length := by
  induction items using List.reverseRecOn with
  | nil => cases seen
  | append_singleton items item induction =>
      rw [admitted_concat]
      rw [List.map_append, List.mem_append] at seen
      rcases seen with earlier | last
      · rcases induction earlier with member | full
        · exact .inl (admitKey_mono member)
        · exact .inr (Nat.le_trans full length_admitKey)
      · have same : key = rule.key item := by simpa using last
        subst same
        unfold admitKey
        split
        · rename_i known
          exact known
        · exact .inl (by simp)

/-- When there is room for all keys, the admitted ones are those that
occur. -/
theorem mem_admitted_iff {items : List Item}
    (room : (items.map rule.key).dedup.length ≤ capacity) {key : Key} :
    key ∈ admitted rule capacity items ↔ key ∈ items.map rule.key := by
  constructor
  · exact mem_keys_of_admitted
  · intro seen
    rcases admitted_or_full capacity seen with member | full
    · exact member
    · by_contra absent
      have distinct : (key :: admitted rule capacity items).Nodup :=
        List.nodup_cons.mpr ⟨absent, nodup_admitted items⟩
      have within : key :: admitted rule capacity items ⊆
          (items.map rule.key).dedup := by
        intro other member
        rw [List.mem_dedup]
        rcases List.mem_cons.mp member with rfl | earlier
        · exact seen
        · exact mem_keys_of_admitted earlier
      have bound := (distinct.subperm within).length_le
      rw [List.length_cons] at bound
      omega

/-- The table holds one group for every admitted key: the summary of all its
items. -/
structure Represents (rule : Rule Item Key Group)
    (shape : ChainedTable.Shape Key Group) (capacity : Nat)
    (items : List Item) (table : Table Group) : Prop where
  wellFormed : ChainedTable.WellFormed shape table.chains
  found : ∀ key, ChainedTable.find shape table.chains key =
    if key ∈ admitted rule capacity items then
      summary rule (ofKey rule key items)
    else none
  count : table.count = (admitted rule capacity items).length

theorem summary_ofKey_isSome {items : List Item} {key : Key}
    (member : key ∈ admitted rule capacity items) :
    ∃ group, summary rule (ofKey rule key items) = some group := by
  apply Option.ne_none_iff_exists'.mp
  intro none
  exact ofKey_eq_nil_iff.mp (summary_eq_none_iff.mp none)
    (mem_keys_of_admitted member)

/-- The table finds a group for the admitted keys and for no others. -/
theorem Represents.find_isSome_iff {items : List Item} {table : Table Group}
    (represents : Represents rule shape capacity items table) (key : Key) :
    (ChainedTable.find shape table.chains key).isSome = true ↔
      key ∈ admitted rule capacity items := by
  rw [represents.found]
  constructor
  · intro present
    by_contra absent
    rw [if_neg absent] at present
    cases present
  · intro member
    obtain ⟨group, built⟩ := summary_ofKey_isSome member
    rw [if_pos member, built]
    rfl

/-- An item with a known key extends the group of its key. -/
theorem Represents.extend {items : List Item} {table : Table Group}
    (fits : Fits rule shape)
    (represents : Represents rule shape capacity items table) {item : Item}
    (member : rule.key item ∈ admitted rule capacity items) :
    Represents rule shape capacity (items ++ [item])
      { table with
        chains := ChainedTable.modify shape table.chains (rule.key item)
          fun group => rule.extend group item } := by
  have kept := admitted_concat_known member
  have lookup := represents.found (rule.key item)
  rw [if_pos member] at lookup
  constructor
  · exact represents.wellFormed.modify (fits.extend item)
  · intro key
    rw [ChainedTable.find_modify (fits.extend item), kept, ofKey_concat]
    by_cases same : key = rule.key item
    · subst same
      rw [if_pos rfl, if_pos rfl, if_pos member, summary_concat, ← lookup]
      cases present : ChainedTable.find shape table.chains (rule.key item) with
      | some group => rfl
      | none =>
          have found := (represents.find_isSome_iff _).mpr member
          rw [present] at found
          cases found
    · rw [if_neg same, if_neg (Ne.symm same)]
      exact represents.found key
  · rw [kept]
    exact represents.count

/-- An item with a new key starts a group while there is room. -/
theorem Represents.start {items : List Item} {table : Table Group}
    (fits : Fits rule shape)
    (represents : Represents rule shape capacity items table) {item : Item}
    (absent : rule.key item ∉ admitted rule capacity items)
    (room : table.count < capacity) :
    Represents rule shape capacity (items ++ [item])
      { chains := ChainedTable.insert shape table.chains (rule.start item)
        count := table.count + 1 } := by
  rw [represents.count] at room
  have grown := admitted_concat_new absent room
  have unseen : ofKey rule (rule.key item) items = [] := by
    apply ofKey_eq_nil_iff.mpr
    intro seen
    rcases admitted_or_full capacity seen with member | full
    · exact absent member
    · exact Nat.not_le.mpr room full
  constructor
  · apply represents.wellFormed.insert
    rw [fits.start, ← Option.not_isSome_iff_eq_none]
    exact fun found => absent ((represents.find_isSome_iff _).mp found)
  · intro key
    rw [ChainedTable.find_insert, fits.start, grown, ofKey_concat]
    by_cases same : rule.key item = key
    · subst same
      rw [if_pos rfl, if_pos rfl, if_pos (by simp), unseen]
      rfl
    · rw [if_neg same, if_neg same, represents.found key]
      have member : key ∈ admitted rule capacity items ++
          [rule.key item] ↔ key ∈ admitted rule capacity items := by
        simp [Ne.symm same]
      simp only [member]
  · rw [grown, List.length_append, List.length_singleton,
      represents.count]

/-- An item with a new key is left out of a full table. -/
theorem Represents.skip {items : List Item} {table : Table Group}
    (represents : Represents rule shape capacity items table) {item : Item}
    (absent : rule.key item ∉ admitted rule capacity items)
    (full : capacity ≤ table.count) :
    Represents rule shape capacity (items ++ [item]) table := by
  rw [represents.count] at full
  have kept : admitted rule capacity (items ++ [item]) =
      admitted rule capacity items := admitted_concat_full full
  constructor
  · exact represents.wellFormed
  · intro key
    rw [kept, ofKey_concat, represents.found key]
    by_cases member : key ∈ admitted rule capacity items
    · have different : rule.key item ≠ key := by
        intro same
        exact absent (same ▸ member)
      rw [if_pos member, if_pos member, if_neg different]
    · rw [if_neg member, if_neg member]
  · rw [kept]
    exact represents.count

theorem Represents.upsert {items : List Item} {table : Table Group}
    (fits : Fits rule shape)
    (represents : Represents rule shape capacity items table) (item : Item) :
    Represents rule shape capacity (items ++ [item])
      (upsert rule shape capacity table item) := by
  unfold Grouping.upsert
  have known := represents.find_isSome_iff (rule.key item)
  cases outcome : ChainedTable.find shape table.chains (rule.key item) with
  | some group =>
      rw [outcome] at known
      exact represents.extend fits (known.mp rfl)
  | none =>
      rw [outcome] at known
      have absent : rule.key item ∉ admitted rule capacity items :=
        fun member => nomatch known.mpr member
      by_cases room : table.count < capacity
      · rw [if_pos room]
        exact represents.start fits absent room
      · rw [if_neg room]
        exact represents.skip absent (Nat.not_lt.mp room)

theorem represents_build (fits : Fits rule shape) (items : List Item) :
    Represents rule shape capacity items
      (build rule shape capacity items) := by
  unfold build
  induction items using List.reverseRecOn with
  | nil =>
      constructor
      · exact .empty shape
      · intro key
        simp [ChainedTable.find, Table.empty, admitted]
      · rfl
  | append_singleton items item induction =>
      rw [List.foldl_append]
      exact induction.upsert fits item

/-! ## The collected groups -/

variable {items : List Item} {table : Table Group} {buckets : Nat}

theorem Represents.mem_collect_iff
    (represents : Represents rule shape capacity items table)
    (bounded : ∀ key, shape.hash key < buckets) {group : Group} :
    group ∈ ChainedTable.collect table.chains buckets ↔
      shape.key group ∈ admitted rule capacity items ∧
        summary rule (ofKey rule (shape.key group) items) = some group := by
  rw [represents.wellFormed.mem_collect_iff bounded, represents.found]
  split
  · rename_i member
    exact (and_iff_right member).symm
  · rename_i absent
    constructor
    · intro found
      cases found
    · exact fun both => (absent both.1).elim

theorem Represents.perm_keys
    (represents : Represents rule shape capacity items table)
    (bounded : ∀ key, shape.hash key < buckets) :
    ((ChainedTable.collect table.chains buckets).map shape.key).Perm
      (admitted rule capacity items) := by
  rw [List.perm_ext_iff_of_nodup
    (represents.wellFormed.nodup_collect buckets) (nodup_admitted items)]
  intro key
  constructor
  · intro member
    obtain ⟨group, present, rfl⟩ := List.mem_map.mp member
    exact ((represents.mem_collect_iff bounded).mp present).1
  · intro member
    obtain ⟨group, found⟩ := summary_ofKey_isSome member
    have inTable := represents.found key
    rw [if_pos member, found] at inTable
    have same := ChainedTable.key_of_find inTable
    refine List.mem_map.mpr ⟨group, ?_, same⟩
    apply (represents.mem_collect_iff bounded).mpr
    rw [same]
    exact ⟨member, found⟩

/-! ## Sums -/

variable {Amount : Type x} [AddCommMonoid Amount]

theorem sum_map_ofKey_add {key : Key} {keys : List Key}
    (absent : key ∉ keys) (amount : Item → Amount) (items : List Item) :
    ((ofKey rule key items).map amount).sum +
        ((items.filter fun item => rule.key item ∈ keys).map amount).sum =
      ((items.filter fun item => rule.key item ∈ key :: keys).map
        amount).sum := by
  induction items with
  | nil => simp [ofKey]
  | cons item items induction =>
      simp only [ofKey, List.mem_cons, Bool.decide_or] at induction
      by_cases first : rule.key item = key
      · simp [ofKey, first, absent, ← induction, add_assoc]
      · by_cases later : rule.key item ∈ keys
        · simp [ofKey, first, later, ← induction, add_left_comm]
        · simp [ofKey, first, later, ← induction]

theorem sum_map_ofKey {keys : List Key} (distinct : keys.Nodup)
    (amount : Item → Amount) (items : List Item) :
    (keys.map fun key => ((ofKey rule key items).map amount).sum).sum =
      ((items.filter fun item => rule.key item ∈ keys).map amount).sum := by
  induction keys with
  | nil => simp
  | cons key keys induction =>
      rw [List.nodup_cons] at distinct
      rw [List.map_cons, List.sum_cons, induction distinct.2,
        sum_map_ofKey_add distinct.1]

/-- A measure of groups that adds the amounts of their items. -/
structure Adds (rule : Rule Item Key Group) (measure : Group → Amount)
    (amount : Item → Amount) : Prop where
  start : ∀ item, measure (rule.start item) = amount item
  extend : ∀ group item,
    measure (rule.extend group item) = measure group + amount item

omit [DecidableEq Key] in
theorem Adds.summary {measure : Group → Amount} {amount : Item → Amount}
    (adds : Adds rule measure amount) {items : List Item} {group : Group}
    (found : summary rule items = some group) :
    measure group = (items.map amount).sum := by
  induction items using List.reverseRecOn generalizing group with
  | nil => cases found
  | append_singleton items item induction =>
      rw [summary_concat, Option.some.injEq] at found
      rw [List.map_append, List.sum_append, ← found]
      cases earlier : Grouping.summary rule items with
      | none =>
          rw [summary_eq_none_iff] at earlier
          simp [earlier, adds.start]
      | some before => simp [adds.extend, induction earlier]

end Grouping
