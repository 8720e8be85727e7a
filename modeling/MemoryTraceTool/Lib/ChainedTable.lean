import Mathlib.Data.List.Basic
import Mathlib.Data.List.Nodup
import Mathlib.Logic.Function.Basic

/-!
# Chained hash tables

A table is a family of chains indexed by the hash of the key.  Entries are
inserted at the head of their chain, and a lookup or a removal takes the first
entry of the chain with the key.
-/

namespace ChainedTable

/-- How entries are keyed and hashed. -/
structure Shape (Key : Type u) (Entry : Type v) where
  hash : Key → Nat
  key : Entry → Key

variable {Key : Type u} {Entry : Type v} [DecidableEq Key]

/-- The first entry of the chain with the key. -/
def find (shape : Shape Key Entry) (chains : Nat → List Entry) (key : Key) :
    Option Entry :=
  (chains (shape.hash key)).find? fun entry => shape.key entry = key

/-- The entry comes first in its chain. -/
def insert (shape : Shape Key Entry) (chains : Nat → List Entry)
    (entry : Entry) : Nat → List Entry :=
  Function.update chains (shape.hash (shape.key entry))
    (entry :: chains (shape.hash (shape.key entry)))

/-- The first entry with the key goes. -/
def erase (shape : Shape Key Entry) (chains : Nat → List Entry) (key : Key) :
    Nat → List Entry :=
  Function.update chains (shape.hash key)
    ((chains (shape.hash key)).eraseP fun entry => shape.key entry = key)

/-- Change the first entry of a chain with the key where it stands. -/
def modifyChain (shape : Shape Key Entry) (key : Key)
    (change : Entry → Entry) (entries : List Entry) : List Entry :=
  entries.replaceF fun entry =>
    if shape.key entry = key then some (change entry) else none

/-- The first entry with the key is changed. -/
def modify (shape : Shape Key Entry) (chains : Nat → List Entry) (key : Key)
    (change : Entry → Entry) : Nat → List Entry :=
  Function.update chains (shape.hash key)
    (modifyChain shape key change (chains (shape.hash key)))

/-- The chains of the first buckets, one after the other. -/
def collect (chains : Nat → List Entry) (buckets : Nat) : List Entry :=
  (List.range buckets).flatMap chains

/-- Every entry is in the chain of its key, and no key occurs twice. -/
structure WellFormed (shape : Shape Key Entry) (chains : Nat → List Entry) :
    Prop where
  placed : ∀ chain entry, entry ∈ chains chain →
    shape.hash (shape.key entry) = chain
  distinct : ∀ chain, ((chains chain).map shape.key).Nodup

variable {shape : Shape Key Entry} {chains : Nat → List Entry}

theorem key_of_find {key : Key} {entry : Entry}
    (found : find shape chains key = some entry) : shape.key entry = key := by
  simpa using List.find?_some found

theorem mem_of_find {key : Key} {entry : Entry}
    (found : find shape chains key = some entry) :
    entry ∈ chains (shape.hash key) :=
  List.mem_of_find?_eq_some found

theorem find_eq_none_iff {key : Key} :
    find shape chains key = none ↔
      key ∉ (chains (shape.hash key)).map shape.key := by
  simp [find, List.find?_eq_none]

theorem find_insert (entry : Entry) (key : Key) :
    find shape (insert shape chains entry) key =
      if shape.key entry = key then some entry else find shape chains key := by
  unfold find insert
  by_cases sameChain : shape.hash key = shape.hash (shape.key entry)
  · rw [sameChain, Function.update_self, List.find?_cons]
    by_cases sameKey : shape.key entry = key
    · simp [sameKey]
    · simp [sameKey]
  · have different : shape.key entry ≠ key := by
      intro same
      exact sameChain (same ▸ rfl)
    rw [Function.update_of_ne sameChain, if_neg different]

theorem find_erase_other {key other : Key} (different : other ≠ key) :
    find shape (erase shape chains key) other = find shape chains other := by
  unfold find erase
  by_cases sameChain : shape.hash other = shape.hash key
  · rw [sameChain, Function.update_self]
    generalize chains (shape.hash key) = chain
    induction chain with
    | nil => rfl
    | cons entry rest induction =>
        by_cases erased : shape.key entry = key
        · have passed : ¬ key = other := Ne.symm different
          simp [erased, passed]
        · simp only [erased, decide_false, Bool.false_eq_true, not_false_eq_true,
            List.eraseP_cons_of_neg, List.find?_cons, induction]
  · rw [Function.update_of_ne sameChain]

theorem erase_eq_self {key : Key} (missing : find shape chains key = none) :
    erase shape chains key = chains := by
  unfold erase
  rw [List.eraseP_of_forall_not]
  · exact Function.update_eq_self _ _
  · exact List.find?_eq_none.mp missing

theorem modifyChain_cons (key : Key) (change : Entry → Entry) (entry : Entry)
    (rest : List Entry) :
    modifyChain shape key change (entry :: rest) =
      if shape.key entry = key then change entry :: rest
      else entry :: modifyChain shape key change rest := by
  unfold modifyChain
  rw [List.replaceF_cons]
  by_cases changed : shape.key entry = key <;> simp [changed]

theorem find?_modifyChain {key : Key} {change : Entry → Entry}
    (kept : ∀ entry, shape.key (change entry) = shape.key entry)
    (entries : List Entry) (other : Key) :
    ((modifyChain shape key change entries).find?
        fun entry => shape.key entry = other) =
      if other = key then
        (entries.find? fun entry => shape.key entry = key).map change
      else entries.find? fun entry => shape.key entry = other := by
  induction entries with
  | nil => simp [modifyChain]
  | cons entry rest induction =>
      rw [modifyChain_cons]
      by_cases changed : shape.key entry = key
      · rw [if_pos changed, List.find?_cons, List.find?_cons, List.find?_cons,
          kept, changed]
        by_cases same : other = key
        · simp [same]
        · simp [same, Ne.symm same]
      · rw [if_neg changed, List.find?_cons, List.find?_cons, List.find?_cons,
          induction]
        by_cases same : other = key
        · simp [same, changed]
        · simp [same]

theorem find_modify {key : Key} {change : Entry → Entry}
    (kept : ∀ entry, shape.key (change entry) = shape.key entry)
    (other : Key) :
    find shape (modify shape chains key change) other =
      if other = key then (find shape chains key).map change
      else find shape chains other := by
  unfold find modify
  by_cases sameChain : shape.hash other = shape.hash key
  · rw [sameChain, Function.update_self, find?_modifyChain kept]
  · have different : other ≠ key := by
      intro same
      exact sameChain (same ▸ rfl)
    rw [Function.update_of_ne sameChain, if_neg different]

theorem map_key_modifyChain {key : Key} {change : Entry → Entry}
    (kept : ∀ entry, shape.key (change entry) = shape.key entry)
    (entries : List Entry) :
    (modifyChain shape key change entries).map shape.key =
      entries.map shape.key := by
  induction entries with
  | nil => rfl
  | cons entry rest induction =>
      rw [modifyChain_cons]
      by_cases changed : shape.key entry = key
      · rw [if_pos changed, List.map_cons, List.map_cons, kept]
      · rw [if_neg changed, List.map_cons, List.map_cons, induction]

theorem map_key_modify {key : Key} {change : Entry → Entry}
    (kept : ∀ entry, shape.key (change entry) = shape.key entry)
    (chain : Nat) :
    (modify shape chains key change chain).map shape.key =
      (chains chain).map shape.key := by
  unfold modify
  by_cases same : chain = shape.hash key
  · rw [same, Function.update_self, map_key_modifyChain kept]
  · rw [Function.update_of_ne same]

omit [DecidableEq Key] in
/-- A new entry comes into the entries of all buckets once. -/
theorem collect_insert_perm {buckets : Nat} {entry : Entry}
    (bounded : shape.hash (shape.key entry) < buckets) :
    (collect (insert shape chains entry) buckets).Perm
      (entry :: collect chains buckets) := by
  have prefixSame : ∀ count, count ≤ shape.hash (shape.key entry) →
      collect (insert shape chains entry) count = collect chains count := by
    intro count below
    apply List.flatMap_congr
    intro bucket member
    have different : bucket ≠ shape.hash (shape.key entry) := by
      have inside := List.mem_range.mp member
      omega
    exact Function.update_of_ne different ..
  induction buckets with
  | zero => exact absurd bounded (Nat.not_lt_zero _)
  | succ count induction =>
      have split : ∀ chains : Nat → List Entry, collect chains (count + 1) =
          collect chains count ++ chains count := by
        intro chains
        simp [collect, List.range_succ]
      rw [split, split]
      by_cases last : shape.hash (shape.key entry) = count
      · rw [prefixSame count (by omega), insert, last, Function.update_self]
        exact List.perm_middle
      · have other : insert shape chains entry count = chains count :=
          Function.update_of_ne (fun same => last same.symm) ..
        rw [other]
        exact (induction (by omega)).append_right _

/-- What a change keeps of the entries, it keeps of all buckets. -/
theorem map_collect_modify {Part : Type w} (part : Entry → Part) {key : Key}
    {change : Entry → Entry}
    (kept : ∀ entry, part (change entry) = part entry)
    (buckets : Nat) :
    (collect (modify shape chains key change) buckets).map part =
      (collect chains buckets).map part := by
  have chainKept : ∀ entries : List Entry,
      (modifyChain shape key change entries).map part = entries.map part := by
    intro entries
    induction entries with
    | nil => rfl
    | cons entry rest induction =>
        rw [modifyChain_cons]
        split
        · rw [List.map_cons, kept, List.map_cons]
        · rw [List.map_cons, induction, List.map_cons]
  unfold collect
  rw [List.map_flatMap, List.map_flatMap]
  apply List.flatMap_congr
  intro bucket _
  unfold modify
  by_cases same : bucket = shape.hash key
  · rw [same, Function.update_self, chainKept]
  · rw [Function.update_of_ne same]

omit [DecidableEq Key] in
theorem mem_of_insert {entry other : Entry} {chain : Nat}
    (member : other ∈ insert shape chains entry chain) :
    other = entry ∨ other ∈ chains chain := by
  unfold insert at member
  by_cases same : chain = shape.hash (shape.key entry)
  · rw [same, Function.update_self] at member
    rw [same]
    exact List.mem_cons.mp member
  · rw [Function.update_of_ne same] at member
    exact Or.inr member

theorem mem_of_erase {key : Key} {entry : Entry} {chain : Nat}
    (member : entry ∈ erase shape chains key chain) :
    entry ∈ chains chain := by
  unfold erase at member
  by_cases same : chain = shape.hash key
  · rw [same, Function.update_self] at member
    rw [same]
    exact List.mem_of_mem_eraseP member
  · rwa [Function.update_of_ne same] at member

namespace WellFormed

omit [DecidableEq Key] in
theorem empty (shape : Shape Key Entry) :
    WellFormed shape fun _ => ([] : List Entry) := by
  constructor <;> simp

theorem find_of_mem (wellFormed : WellFormed shape chains) {chain : Nat}
    {entry : Entry} (member : entry ∈ chains chain) :
    find shape chains (shape.key entry) = some entry := by
  have placed := wellFormed.placed chain entry member
  have distinct := wellFormed.distinct chain
  unfold find
  rw [placed]
  generalize chains chain = entries at member distinct
  induction entries with
  | nil => cases member
  | cons first rest induction =>
      rw [List.map_cons, List.nodup_cons] at distinct
      rw [List.find?_cons]
      rcases List.mem_cons.mp member with same | later
      · subst same
        simp
      · have different : ¬ shape.key first = shape.key entry := by
          intro same
          exact distinct.1 (same ▸ List.mem_map_of_mem later)
        simp [different, induction later distinct.2]

theorem insert (wellFormed : WellFormed shape chains) {entry : Entry}
    (fresh : find shape chains (shape.key entry) = none) :
    WellFormed shape (ChainedTable.insert shape chains entry) := by
  constructor
  · intro chain other member
    unfold ChainedTable.insert at member
    by_cases same : chain = shape.hash (shape.key entry)
    · rw [same, Function.update_self] at member
      rcases List.mem_cons.mp member with isEntry | old
      · rw [isEntry, same]
      · rw [wellFormed.placed _ _ old, same]
    · rw [Function.update_of_ne same] at member
      exact wellFormed.placed _ _ member
  · intro chain
    unfold ChainedTable.insert
    by_cases same : chain = shape.hash (shape.key entry)
    · rw [same, Function.update_self, List.map_cons, List.nodup_cons]
      exact ⟨find_eq_none_iff.mp fresh, wellFormed.distinct _⟩
    · rw [Function.update_of_ne same]
      exact wellFormed.distinct chain

theorem erase (wellFormed : WellFormed shape chains) (key : Key) :
    WellFormed shape (ChainedTable.erase shape chains key) := by
  constructor
  · intro chain other member
    unfold ChainedTable.erase at member
    by_cases same : chain = shape.hash key
    · rw [same, Function.update_self] at member
      rw [wellFormed.placed _ _ (List.mem_of_mem_eraseP member), same]
    · rw [Function.update_of_ne same] at member
      exact wellFormed.placed _ _ member
  · intro chain
    unfold ChainedTable.erase
    by_cases same : chain = shape.hash key
    · rw [same, Function.update_self]
      exact (wellFormed.distinct _).sublist (List.eraseP_sublist.map _)
    · rw [Function.update_of_ne same]
      exact wellFormed.distinct chain

omit [DecidableEq Key] in
theorem of_map_key {other : Nat → List Entry}
    (wellFormed : WellFormed shape chains)
    (same : ∀ chain, (other chain).map shape.key =
      (chains chain).map shape.key) : WellFormed shape other := by
  constructor
  · intro chain entry member
    have keys : shape.key entry ∈ (chains chain).map shape.key := by
      rw [← same]
      exact List.mem_map_of_mem member
    obtain ⟨original, present, sameKey⟩ := List.mem_map.mp keys
    rw [← sameKey]
    exact wellFormed.placed chain original present
  · intro chain
    rw [same]
    exact wellFormed.distinct chain

theorem modify (wellFormed : WellFormed shape chains) {key : Key}
    {change : Entry → Entry}
    (kept : ∀ entry, shape.key (change entry) = shape.key entry) :
    WellFormed shape (ChainedTable.modify shape chains key change) :=
  wellFormed.of_map_key (map_key_modify kept)

/-- The entries of all buckets are those that lookups find. -/
theorem mem_collect_iff (wellFormed : WellFormed shape chains)
    {buckets : Nat} (bounded : ∀ key, shape.hash key < buckets)
    {entry : Entry} :
    entry ∈ collect chains buckets ↔
      find shape chains (shape.key entry) = some entry := by
  constructor
  · intro member
    obtain ⟨chain, _, present⟩ := List.mem_flatMap.mp member
    exact wellFormed.find_of_mem present
  · intro found
    apply List.mem_flatMap.mpr
    exact ⟨_, List.mem_range.mpr (bounded _), mem_of_find found⟩

omit [DecidableEq Key] in
theorem nodup_flatMap (wellFormed : WellFormed shape chains)
    {indices : List Nat} (different : indices.Nodup) :
    ((indices.flatMap chains).map shape.key).Nodup := by
  rw [List.map_flatMap, List.nodup_flatMap]
  constructor
  · exact fun chain _ => wellFormed.distinct chain
  · apply different.imp
    intro first second different key inFirst inSecond
    obtain ⟨entry, present, rfl⟩ := List.mem_map.mp inFirst
    obtain ⟨other, also, same⟩ := List.mem_map.mp inSecond
    apply different
    rw [← wellFormed.placed first entry present,
      ← wellFormed.placed second other also, same]

omit [DecidableEq Key] in
/-- No key occurs twice in the whole table. -/
theorem nodup_collect (wellFormed : WellFormed shape chains)
    (buckets : Nat) : ((collect chains buckets).map shape.key).Nodup :=
  wellFormed.nodup_flatMap List.nodup_range

theorem find_erase_self (wellFormed : WellFormed shape chains) (key : Key) :
    find shape (ChainedTable.erase shape chains key) key = none := by
  rw [find_eq_none_iff]
  unfold ChainedTable.erase
  rw [Function.update_self]
  have distinct := wellFormed.distinct (shape.hash key)
  generalize chains (shape.hash key) = entries at distinct
  induction entries with
  | nil => simp
  | cons first rest induction =>
      rw [List.map_cons, List.nodup_cons] at distinct
      by_cases erased : shape.key first = key
      · have absent := distinct.1
        rw [erased] at absent
        rw [List.eraseP_cons_of_pos (by simpa using erased)]
        exact absent
      · rw [List.eraseP_cons_of_neg (by simpa using erased), List.map_cons,
          List.mem_cons]
        rintro (same | later)
        · exact erased same.symm
        · exact induction distinct.2 later

theorem key_ne_of_mem_erase (wellFormed : WellFormed shape chains)
    {key : Key} {entry : Entry} {chain : Nat}
    (member : entry ∈ ChainedTable.erase shape chains key chain) :
    shape.key entry ≠ key := by
  intro same
  have found := (wellFormed.erase key).find_of_mem member
  rw [same, wellFormed.find_erase_self] at found
  cases found

theorem mem_erase_iff (wellFormed : WellFormed shape chains) {key : Key}
    {entry : Entry} {chain : Nat} :
    entry ∈ ChainedTable.erase shape chains key chain ↔
      entry ∈ chains chain ∧ shape.key entry ≠ key := by
  constructor
  · intro member
    exact ⟨mem_of_erase member, wellFormed.key_ne_of_mem_erase member⟩
  · rintro ⟨member, other⟩
    unfold ChainedTable.erase
    by_cases same : chain = shape.hash key
    · subst same
      rw [Function.update_self, List.mem_eraseP_of_neg (by simpa using other)]
      exact member
    · rw [Function.update_of_ne same]
      exact member

theorem find_erase (wellFormed : WellFormed shape chains) (key other : Key) :
    find shape (ChainedTable.erase shape chains key) other =
      if other = key then none else find shape chains other := by
  by_cases same : other = key
  · rw [if_pos same, same, wellFormed.find_erase_self]
  · rw [if_neg same, find_erase_other same]

end WellFormed

theorem length_collect_update (chains : Nat → List Entry)
    {index buckets : Nat} (inside : index < buckets) (entries : List Entry) :
    (collect (Function.update chains index entries) buckets).length +
        (chains index).length =
      (collect chains buckets).length + entries.length := by
  have split : ∀ (chains : Nat → List Entry) (count : Nat),
      (collect chains (count + 1)).length =
        (collect chains count).length + (chains count).length := by
    intro chains count
    simp [collect, List.range_succ]
  have outside : ∀ count ≤ index,
      collect (Function.update chains index entries) count =
        collect chains count := by
    intro count below
    apply List.flatMap_congr
    intro bucket member
    exact Function.update_of_ne
      (Nat.ne_of_lt (Nat.lt_of_lt_of_le (List.mem_range.mp member) below)) ..
  induction buckets with
  | zero => exact absurd inside (Nat.not_lt_zero _)
  | succ count induction =>
      rw [split, split]
      by_cases last : index = count
      · rw [← last, outside index (Nat.le_refl _), Function.update_self]
        omega
      · rw [Function.update_of_ne (Ne.symm last)]
        have earlier := induction (by omega)
        omega

/-- A removal takes one entry out of all buckets. -/
theorem length_collect_erase {key : Key} {entry : Entry} {buckets : Nat}
    (bounded : shape.hash key < buckets)
    (found : find shape chains key = some entry) :
    (collect (erase shape chains key) buckets).length + 1 =
      (collect chains buckets).length := by
  have changed := length_collect_update chains bounded
    ((chains (shape.hash key)).eraseP fun entry => shape.key entry = key)
  have shorter := List.length_eraseP_of_mem (mem_of_find found)
    (p := fun entry => shape.key entry = key)
    (by simpa using key_of_find found)
  have filled := List.length_pos_of_mem (mem_of_find found)
  unfold erase
  omega

/-! ## The entries of one key -/

/-- The entries with a key, the one inserted last first. -/
def stack (shape : Shape Key Entry) (chains : Nat → List Entry) (key : Key) :
    List Entry :=
  (chains (shape.hash key)).filter fun entry => shape.key entry = key

theorem find_eq_head?_stack (key : Key) :
    find shape chains key = (stack shape chains key).head? :=
  List.head?_filter.symm

theorem stack_insert (entry : Entry) :
    stack shape (insert shape chains entry) =
      Function.update (stack shape chains) (shape.key entry)
        (entry :: stack shape chains (shape.key entry)) := by
  funext key
  unfold stack insert
  by_cases sameKey : key = shape.key entry
  · subst sameKey
    simp
  · have passed : ¬ shape.key entry = key := Ne.symm sameKey
    rw [Function.update_of_ne sameKey]
    by_cases sameChain : shape.hash key = shape.hash (shape.key entry)
    · rw [sameChain, Function.update_self,
        List.filter_cons_of_neg (by simpa using passed)]
    · rw [Function.update_of_ne sameChain]

/-- A removal pops the stack of its key and leaves the others. -/
theorem stack_erase (key : Key) :
    stack shape (erase shape chains key) =
      Function.update (stack shape chains) key
        (stack shape chains key).tail := by
  funext other
  unfold stack erase
  by_cases sameKey : other = key
  · subst sameKey
    rw [Function.update_self, Function.update_self]
    induction chains (shape.hash other) with
    | nil => rfl
    | cons entry rest induction =>
        by_cases here : shape.key entry = other
        · simp [here]
        · simpa [here] using induction
  · rw [Function.update_of_ne sameKey]
    by_cases sameChain : shape.hash other = shape.hash key
    · rw [sameChain, Function.update_self]
      induction chains (shape.hash key) with
      | nil => rfl
      | cons entry rest induction =>
          by_cases here : shape.key entry = key
          · have passed : ¬ key = other := Ne.symm sameKey
            simp [here, passed]
          · simp only [here, decide_false, Bool.false_eq_true,
              not_false_eq_true, List.eraseP_cons_of_neg, List.filter_cons,
              induction]
    · rw [Function.update_of_ne sameChain]

/-! ## Views of the entries -/

/-- A view of the entries that keeps their keys and the hash. -/
structure Shape.Views {Other : Type w} (shape : Shape Key Entry)
    (other : Shape Key Other) (view : Entry → Other) : Prop where
  hash : other.hash = shape.hash
  key : ∀ entry, other.key (view entry) = shape.key entry

/-- The chains of the views. -/
def viewed {Other : Type w} (view : Entry → Other)
    (chains : Nat → List Entry) : Nat → List Other :=
  fun chain => (chains chain).map view

section

variable {Other : Type w} {other : Shape Key Other} {view : Entry → Other}

theorem find_viewed (views : shape.Views other view) (key : Key) :
    find other (viewed view chains) key = (find shape chains key).map view := by
  simp only [find, viewed, views.hash, List.find?_map]
  congr 2
  funext entry
  simp only [Function.comp_apply, views.key]

omit [DecidableEq Key] in
theorem viewed_update (chain : Nat) (entries : List Entry) :
    viewed view (Function.update chains chain entries) =
      Function.update (viewed view chains) chain (entries.map view) := by
  funext index
  by_cases same : index = chain
  · rw [viewed, same, Function.update_self, Function.update_self]
  · rw [viewed, Function.update_of_ne same, Function.update_of_ne same,
      viewed]

omit [DecidableEq Key] in
theorem insert_viewed (views : shape.Views other view) (entry : Entry) :
    insert other (viewed view chains) (view entry) =
      viewed view (insert shape chains entry) := by
  simp only [insert, viewed_update, views.hash, views.key, viewed,
    List.map_cons]

theorem erase_viewed (views : shape.Views other view) (key : Key) :
    erase other (viewed view chains) key =
      viewed view (erase shape chains key) := by
  simp only [erase, viewed_update, views.hash, viewed, List.eraseP_map]
  congr 3
  funext entry
  simp only [Function.comp_apply, views.key]

end

end ChainedTable
