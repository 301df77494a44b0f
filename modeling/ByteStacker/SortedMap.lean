import Mathlib.Data.List.Basic
import Mathlib.Data.List.Pairwise

/-!
# Ordered maps as sorted association lists

An ordered map keeps its entries in strictly increasing key order, so that the
first entry is the one with the least key and every key occurs once.  The
order is a field of the structure: an unsorted map cannot be built.

The operations are the ones of an ordered map that is filled in any order and
drained from the front: `contains`, `insert` of a new key, `eraseBegin`,
`filterKeys` and `empty`.  What an operation does is stated through membership
of `(key, value)` pairs in `entries`.
-/

/-- A finite map whose entries are listed in strictly increasing key order. -/
structure SortedMap (κ υ : Type*) [LT κ] where
  entries : List (κ × υ)
  sorted : entries.Pairwise (fun a b => a.1 < b.1)

namespace SortedMap

variable {κ υ : Type*} [LT κ]

instance [DecidableEq κ] [DecidableEq υ] : DecidableEq (SortedMap κ υ) :=
  fun m n => decidable_of_iff (m.entries = n.entries) (by
    cases m; cases n; simp)

/-- The map without entries. -/
def empty : SortedMap κ υ := ⟨[], List.Pairwise.nil⟩

/-- Does the map hold the key? -/
def contains [DecidableEq κ] (m : SortedMap κ υ) (k : κ) : Bool :=
  m.entries.any fun e => e.1 = k

/-- The value of the key. -/
def find? [DecidableEq κ] (m : SortedMap κ υ) (k : κ) : Option υ :=
  (m.entries.find? fun e => e.1 = k).map Prod.snd

/-- The map without its first entry. -/
def eraseBegin (m : SortedMap κ υ) : SortedMap κ υ :=
  ⟨m.entries.tail, m.sorted.tail⟩

/-- The entries whose key passes the test. -/
def filterKeys (m : SortedMap κ υ) (p : κ → Bool) : SortedMap κ υ :=
  ⟨m.entries.filter fun e => p e.1, m.sorted.filter _⟩

/-- Insertion point of a new entry in a sorted list. -/
def insertEntry [DecidableLT κ] (k : κ) (v : υ) : List (κ × υ) → List (κ × υ)
  | [] => [(k, v)]
  | e :: rest => if k < e.1 then (k, v) :: e :: rest else e :: insertEntry k v rest

/-- The empty map has no entries. -/
@[simp] theorem entries_empty : (empty : SortedMap κ υ).entries = [] := rfl

/-- Erasing the first entry leaves the rest. -/
@[simp] theorem entries_eraseBegin (m : SortedMap κ υ) :
    m.eraseBegin.entries = m.entries.tail := rfl

/-- Filtering by the key filters the entries. -/
@[simp] theorem entries_filterKeys (m : SortedMap κ υ) (p : κ → Bool) :
    (m.filterKeys p).entries = m.entries.filter (fun e => p e.1) := rfl

/-- A key is contained with some value. -/
theorem contains_iff [DecidableEq κ] {m : SortedMap κ υ} {k : κ} :
    m.contains k = true ↔ ∃ v, (k, v) ∈ m.entries := by
  simp [contains]

/-- A key is not contained with any value. -/
theorem contains_eq_false_iff [DecidableEq κ] {m : SortedMap κ υ} {k : κ} :
    m.contains k = false ↔ ∀ v, (k, v) ∉ m.entries := by
  rw [← Bool.not_eq_true, contains_iff]
  simp

/-- A filtered map contains the keys that pass. -/
theorem contains_filterKeys [DecidableEq κ] (m : SortedMap κ υ) (p : κ → Bool) (k : κ) :
    (m.filterKeys p).contains k = (p k && m.contains k) := by
  rw [Bool.eq_iff_iff, Bool.and_eq_true, contains_iff, contains_iff, ← exists_and_left]
  refine exists_congr fun v => ?_
  rw [entries_filterKeys, List.mem_filter, and_comm]

/-- Insertion adds the entry and nothing else. -/
theorem mem_insertEntry [DecidableLT κ] {k : κ} {v : υ} {e : κ × υ} {l : List (κ × υ)} :
    e ∈ insertEntry k v l ↔ e = (k, v) ∨ e ∈ l := by
  induction l with
  | nil => simp [insertEntry]
  | cons a rest ih =>
      by_cases h : k < a.1
      · simp [insertEntry, h]
      · simp only [insertEntry, h, if_false, List.mem_cons, ih]
        tauto

/-- Inserting a key the list does not hold keeps it sorted. -/
theorem sorted_insertEntry [DecidableLT κ] [LE κ] [Std.IsLinearOrder κ] [Std.LawfulOrderLT κ]
    {k : κ} {v : υ} {l : List (κ × υ)} (hl : l.Pairwise (fun a b => a.1 < b.1))
    (hk : ∀ e ∈ l, e.1 ≠ k) :
    (insertEntry k v l).Pairwise (fun a b => a.1 < b.1) := by
  induction l with
  | nil => simp [insertEntry]
  | cons a rest ih =>
      obtain ⟨ha, hrest⟩ := List.pairwise_cons.mp hl
      by_cases h : k < a.1
      · simp only [insertEntry, h, if_true]
        refine List.pairwise_cons.mpr ⟨?_, hl⟩
        intro b hb
        rcases List.mem_cons.mp hb with rfl | hb
        · exact h
        · exact Std.lt_trans h (ha b hb)
      · simp only [insertEntry, h, if_false]
        have hrest' := ih hrest (fun e he => hk e (List.mem_cons_of_mem _ he))
        refine List.pairwise_cons.mpr ⟨?_, hrest'⟩
        intro b hb
        rcases mem_insertEntry.mp hb with rfl | hb
        · have hle : a.1 ≤ k := Std.not_lt.mp h
          exact Std.lt_of_le_of_ne hle (hk a List.mem_cons_self)
        · exact ha b hb

/-- The entries behind the first one have another key. -/
theorem mem_eraseBegin [LE κ] [Std.LawfulOrderLT κ]
    {m : SortedMap κ υ} {b e : κ × υ} {rest : List (κ × υ)}
    (hm : m.entries = b :: rest) :
    e ∈ m.eraseBegin.entries ↔ e ∈ m.entries ∧ e.1 ≠ b.1 := by
  have hs := m.sorted
  rw [hm] at hs
  have hlt := (List.pairwise_cons.mp hs).1
  simp only [entries_eraseBegin, hm, List.tail_cons, List.mem_cons]
  constructor
  · intro he
    exact ⟨Or.inr he, fun h => absurd (h ▸ hlt e he) Std.lt_irrefl⟩
  · intro hmem
    obtain ⟨rfl | he, hne⟩ := hmem
    · exact absurd rfl hne
    · exact he

/-- Two entries of one key are the same. -/
theorem eq_of_key [LE κ] [Std.LawfulOrderLT κ] {m : SortedMap κ υ} {a b : κ × υ}
    (ha : a ∈ m.entries) (hb : b ∈ m.entries) (hkey : a.1 = b.1) : a = b := by
  have hone : ∀ a ∈ m.entries, ∀ b ∈ m.entries, a.1 = b.1 → a = b := by
    refine List.Pairwise.forall_of_forall_of_flip (fun _ _ _ => rfl) ?_ ?_
    · exact m.sorted.imp fun hlt heq => absurd (heq ▸ hlt) Std.lt_irrefl
    · exact m.sorted.imp fun hlt heq => absurd (heq ▸ hlt) Std.lt_irrefl
  exact hone a ha b hb hkey

/-- **Keys are found with their value.** -/
theorem find?_eq_some_iff [LE κ] [Std.LawfulOrderLT κ] [DecidableEq κ] {m : SortedMap κ υ}
    {k : κ} {v : υ} :
    m.find? k = some v ↔ (k, v) ∈ m.entries := by
  constructor
  · intro h
    obtain ⟨e, hfind, rfl⟩ := Option.map_eq_some_iff.mp h
    have hkey : e.1 = k := by simpa using List.find?_some hfind
    exact hkey ▸ List.mem_of_find?_eq_some hfind
  · intro hmem
    rw [find?]
    cases hfind : m.entries.find? fun e => e.1 = k with
    | none => simpa using List.find?_eq_none.mp hfind (k, v) hmem
    | some e =>
        have hkey : e.1 = k := by simpa using List.find?_some hfind
        rw [eq_of_key (List.mem_of_find?_eq_some hfind) hmem hkey]
        rfl

/-- A list with the entries of a map in any order is searched as the map is. -/
theorem lookup_of_perm [LE κ] [Std.LawfulOrderLT κ] [DecidableEq κ] {m : SortedMap κ υ}
    {es : List (κ × υ)} (h : es.Perm m.entries) (k : κ) : es.lookup k = m.find? k := by
  have hmem : ∀ v, es.lookup k = some v → (k, v) ∈ es := by
    intro v hv
    obtain ⟨l₁, l₂, rfl, _⟩ := List.lookup_eq_some_iff.mp hv
    exact List.mem_append_right l₁ List.mem_cons_self
  refine Option.ext fun v => ?_
  rw [find?_eq_some_iff]
  constructor
  · exact fun hv => h.subset (hmem v hv)
  · intro hv
    cases hw : es.lookup k with
    | none => simpa using List.lookup_eq_none_iff.mp hw (k, v) (h.symm.subset hv)
    | some w =>
        have hsame := eq_of_key (h.subset (hmem w hw)) hv rfl
        rw [(Prod.mk.inj hsame).2]

section Ordered

variable [LE κ] [Std.IsLinearOrder κ] [Std.LawfulOrderLT κ]

/-- The first entry is the one with the least key. -/
theorem begin_le {m : SortedMap κ υ} {b e : κ × υ} {rest : List (κ × υ)}
    (hm : m.entries = b :: rest) (he : e ∈ m.entries) : b.1 ≤ e.1 := by
  have hs := m.sorted
  rw [hm] at hs he
  rcases List.mem_cons.mp he with rfl | he
  · exact Std.le_refl _
  · exact Std.le_of_lt ((List.pairwise_cons.mp hs).1 e he)

/-- **A map is its entries**: two maps with the same entries are equal. -/
theorem ext_mem {m n : SortedMap κ υ} (h : ∀ e, e ∈ m.entries ↔ e ∈ n.entries) : m = n := by
  have hnodup : ∀ m : SortedMap κ υ, m.entries.Nodup := by
    intro m
    refine m.sorted.imp fun hlt heq => ?_
    rw [heq] at hlt
    exact Std.lt_irrefl hlt
  have hperm : m.entries.Perm n.entries := (List.perm_ext_iff_of_nodup (hnodup m) (hnodup n)).mpr h
  have hsame : m.entries = n.entries := by
    refine hperm.eq_of_pairwise ?_ m.sorted n.sorted
    exact fun a b _ _ hab hba => absurd (Std.lt_trans hab hba) Std.lt_irrefl
  cases m
  cases n
  cases hsame
  rfl

/-- Maps that agree on every key are equal. -/
theorem ext_find? [DecidableEq κ] {m n : SortedMap κ υ} (h : ∀ k, m.find? k = n.find? k) :
    m = n := by
  refine ext_mem fun e => ?_
  rw [← find?_eq_some_iff (k := e.1) (v := e.2), ← find?_eq_some_iff (k := e.1) (v := e.2), h]

variable [DecidableLT κ] [DecidableEq κ]

/-- Insert an entry unless the key is already there. -/
def insert (m : SortedMap κ υ) (k : κ) (v : υ) : SortedMap κ υ :=
  if h : m.contains k = true then m
  else ⟨insertEntry k v m.entries, sorted_insertEntry m.sorted (by
    intro e he heq
    exact h (contains_iff.mpr ⟨e.2, heq ▸ he⟩))⟩

/-- A new key adds its entry. -/
theorem mem_insert_new {m : SortedMap κ υ} {k : κ} {v : υ} {e : κ × υ}
    (h : m.contains k = false) :
    e ∈ (m.insert k v).entries ↔ e = (k, v) ∨ e ∈ m.entries := by
  have hne : ¬ m.contains k = true := by simp [h]
  simp only [insert, dif_neg hne]
  exact mem_insertEntry

/-- `insert` of a contained key changes nothing, as in the C++ map. -/
theorem insert_of_contains {m : SortedMap κ υ} {k : κ} (v : υ) (h : m.contains k = true) :
    m.insert k v = m := dif_pos h

/-- Other keys are not affected. -/
theorem contains_insert_ne {m : SortedMap κ υ} {j k : κ} (v : υ) (hne : j ≠ k) :
    (m.insert j v).contains k = m.contains k := by
  cases hj : m.contains j with
  | true => rw [insert_of_contains v hj]
  | false =>
      rw [Bool.eq_iff_iff, contains_iff, contains_iff]
      refine exists_congr fun w => ?_
      rw [mem_insert_new hj, Prod.mk.injEq]
      exact or_iff_right fun h => hne h.1.symm

/-- The key inserted is contained. -/
theorem contains_insert_self (m : SortedMap κ υ) (k : κ) (v : υ) :
    (m.insert k v).contains k = true := by
  cases hk : m.contains k with
  | true => rw [insert_of_contains v hk, hk]
  | false => exact contains_iff.mpr ⟨v, (mem_insert_new hk).mpr (Or.inl rfl)⟩

/-- Entries of different keys may be inserted in any order. -/
theorem insert_comm {m : SortedMap κ υ} {j k : κ} (v w : υ) (hne : j ≠ k) :
    (m.insert j v).insert k w = (m.insert k w).insert j v := by
  cases hj : m.contains j with
  | true =>
      have hj' : (m.insert k w).contains j = true := by rw [contains_insert_ne w hne.symm, hj]
      rw [insert_of_contains v hj, insert_of_contains v hj']
  | false =>
      have hj' : (m.insert k w).contains j = false := by rw [contains_insert_ne w hne.symm, hj]
      cases hk : m.contains k with
      | true =>
          have hk' : (m.insert j v).contains k = true := by rw [contains_insert_ne v hne, hk]
          rw [insert_of_contains w hk, insert_of_contains w hk']
      | false =>
          have hk' : (m.insert j v).contains k = false := by rw [contains_insert_ne v hne, hk]
          refine ext_mem fun e => ?_
          rw [mem_insert_new hk', mem_insert_new hj, mem_insert_new hj', mem_insert_new hk]
          exact or_left_comm

/-- An entry that passes the test may be inserted before or after it. -/
theorem filterKeys_insert {m : SortedMap κ υ} {k : κ} {p : κ → Bool} (v : υ) (hp : p k = true) :
    (m.insert k v).filterKeys p = (m.filterKeys p).insert k v := by
  cases hk : m.contains k with
  | true =>
      have hk' : (m.filterKeys p).contains k = true := by rw [contains_filterKeys, hp, hk]; rfl
      rw [insert_of_contains v hk, insert_of_contains v hk']
  | false =>
      have hk' : (m.filterKeys p).contains k = false := by
        rw [contains_filterKeys, hk, Bool.and_false]
      refine ext_mem fun e => ?_
      rw [entries_filterKeys, List.mem_filter, mem_insert_new hk, mem_insert_new hk',
        entries_filterKeys, List.mem_filter, or_and_right]
      refine or_congr_left (and_iff_left_of_imp fun h => ?_)
      rw [h]
      exact hp

/-- An entry that fails the test leaves no trace. -/
theorem filterKeys_insert_out {m : SortedMap κ υ} {k : κ} {p : κ → Bool} (v : υ)
    (hp : p k = false) : (m.insert k v).filterKeys p = m.filterKeys p := by
  cases hk : m.contains k with
  | true => rw [insert_of_contains v hk]
  | false =>
      refine ext_mem fun e => ?_
      rw [entries_filterKeys, List.mem_filter, mem_insert_new hk, entries_filterKeys,
        List.mem_filter, or_and_right]
      refine or_iff_right fun h => ?_
      rw [h.1, hp] at h
      cases h.2

/-! ## Looking up and assigning -/

/-- `m[k] = v`: the key gets the value, whatever it had before. -/
def assign (m : SortedMap κ υ) (k : κ) (v : υ) : SortedMap κ υ :=
  (m.filterKeys fun j => j ≠ k).insert k v

/-- **An assignment is read back**, and other keys are not affected. -/
theorem find?_assign (m : SortedMap κ υ) (k j : κ) (v : υ) :
    (m.assign k v).find? j = if j = k then some v else m.find? j := by
  have hnew : (m.filterKeys fun j => j ≠ k).contains k = false := by
    rw [contains_filterKeys]
    simp
  refine Option.ext fun w => ?_
  rw [find?_eq_some_iff, assign, mem_insert_new hnew, entries_filterKeys, List.mem_filter]
  by_cases hj : j = k
  · simp [hj, eq_comm]
  · simp [hj, find?_eq_some_iff]

/-- **The last assignment of a key counts.** -/
theorem find?_foldl_assign (es : List (κ × υ)) (m : SortedMap κ υ) (k : κ) :
    (es.foldl (fun m e => m.assign e.1 e.2) m).find? k = (es.reverse.lookup k).or (m.find? k) := by
  induction es generalizing m with
  | nil => rfl
  | cons e rest ih =>
      obtain ⟨j, v⟩ := e
      rw [List.foldl_cons, ih, find?_assign, List.reverse_cons, List.lookup_append]
      cases rest.reverse.lookup k with
      | some w => rfl
      | none =>
          by_cases hk : k = j
          · simp [hk]
          · simp [List.lookup_cons, beq_eq_false_iff_ne.mpr hk, hk]

end Ordered

end SortedMap
