import Mathlib.Data.List.Nodup
import Mathlib.Tactic.Tauto
import SearchClient.Entries

/-!
# Entries with distinct names

A list of entries without a repeated name is a finite map with an order: it is
given by the list of its names and by what each of them stands for.  Two such
lists are united by keeping the first one and adding what only the second one
names, in its order.
-/

namespace SearchClient.Entries

variable {α : Type}

/-! ## Looking up -/

theorem get?_eq_none_iff {entries : Entries α} {name : String} :
    entries.get? name = none ↔ name ∉ entries.keys := by
  induction entries with
  | nil => simp
  | cons entry rest ih =>
      obtain ⟨key, a⟩ := entry
      rw [get?_cons, keys_cons, List.mem_cons, not_or, ← ih]
      by_cases h : name = key <;> simp [h]

theorem mem_keys_of_get? {entries : Entries α} {name : String} {a : α}
    (h : entries.get? name = some a) : name ∈ entries.keys := by
  by_contra hnot
  rw [get?_eq_none_iff.mpr hnot] at h
  cases h

theorem exists_get?_of_mem_keys {entries : Entries α} {name : String}
    (h : name ∈ entries.keys) : ∃ a, entries.get? name = some a := by
  rw [← Option.ne_none_iff_exists']
  intro hnone
  exact get?_eq_none_iff.mp hnone h

theorem mem_of_get? {entries : Entries α} {name : String} {a : α}
    (h : entries.get? name = some a) : (name, a) ∈ entries := by
  induction entries with
  | nil => simp at h
  | cons entry rest ih =>
      obtain ⟨key, b⟩ := entry
      rw [get?_cons] at h
      by_cases hname : name = key
      · obtain rfl : b = a := by simpa [hname] using h
        simp [hname]
      · exact List.mem_cons_of_mem _ (ih (by simpa [hname] using h))

theorem get?_of_mem {entries : Entries α} (hdistinct : entries.keys.Nodup) {name : String} {a : α}
    (h : (name, a) ∈ entries) : entries.get? name = some a := by
  induction entries with
  | nil => simp at h
  | cons entry rest ih =>
      obtain ⟨key, b⟩ := entry
      rw [keys_cons, List.nodup_cons] at hdistinct
      rw [get?_cons]
      rcases List.mem_cons.mp h with heq | hrest
      · obtain ⟨rfl, rfl⟩ := Prod.mk.inj heq
        simp
      · have hname : name ≠ key := fun heq =>
          hdistinct.1 (heq ▸ List.mem_map_of_mem (f := Prod.fst) hrest)
        rw [if_neg hname]
        exact ih hdistinct.2 hrest

theorem get?_perm {left right : Entries α} (h : left.Perm right) (hdistinct : left.keys.Nodup)
    (name : String) : left.get? name = right.get? name := by
  have hdistinct' : right.keys.Nodup := (h.map Prod.fst).nodup_iff.mp hdistinct
  ext a
  exact ⟨fun ha => get?_of_mem hdistinct' (h.mem_iff.mp (mem_of_get? ha)),
    fun ha => get?_of_mem hdistinct (h.mem_iff.mpr (mem_of_get? ha))⟩

theorem get?_append (left right : Entries α) (name : String) :
    get? (left ++ right : Entries α) name = (left.get? name).or (right.get? name) := by
  induction left with
  | nil => simp
  | cons entry rest ih =>
      obtain ⟨key, a⟩ := entry
      change get? ((key, a) :: (rest ++ right)) name = _
      rw [get?_cons, get?_cons, ih]
      by_cases h : name = key <;> simp [h]

theorem ext_get? {left right : Entries α} (hkeys : left.keys = right.keys)
    (hdistinct : left.keys.Nodup) (h : ∀ name, left.get? name = right.get? name) :
    left = right := by
  induction left generalizing right with
  | nil =>
      cases right with
      | nil => rfl
      | cons entry rest => simp [keys] at hkeys
  | cons entry rest ih =>
      obtain ⟨key, a⟩ := entry
      cases right with
      | nil => simp [keys] at hkeys
      | cons entry' rest' =>
          obtain ⟨key', b⟩ := entry'
          rw [keys_cons, keys_cons, List.cons.injEq] at hkeys
          obtain ⟨rfl, hrest⟩ := hkeys
          rw [keys_cons, List.nodup_cons] at hdistinct
          have hhead := h key
          simp only [get?_cons, if_true, Option.some.injEq] at hhead
          rw [hhead, ih hrest hdistinct.2]
          intro name
          have hname := h name
          simp only [get?_cons] at hname
          by_cases heq : name = key
          · subst heq
            rw [get?_eq_none_iff.mpr hdistinct.1, get?_eq_none_iff.mpr (hrest ▸ hdistinct.1)]
          · simpa [heq] using hname

theorem nodup_keys_set {entries : Entries α} (hdistinct : entries.keys.Nodup) (name : String)
    (a : α) : (entries.set name a).keys.Nodup := by
  rw [keys_set]
  by_cases h : name ∈ entries.keys
  · rwa [if_pos h]
  · rw [if_neg h]
    exact List.Nodup.append hdistinct (List.nodup_singleton name) (by simpa using h)

theorem set_of_get? {entries : Entries α} {name : String} {a : α}
    (h : entries.get? name = some a) : entries.set name a = entries := by
  induction entries with
  | nil => simp at h
  | cons entry rest ih =>
      obtain ⟨key, b⟩ := entry
      rw [get?_cons] at h
      by_cases hname : key = name
      · obtain rfl : b = a := by simpa [hname] using h
        simp [set, hname]
      · rw [set, if_neg hname, ih (by simpa [Ne.symm hname] using h)]

theorem set_of_not_mem {entries : Entries α} {name : String} (h : name ∉ entries.keys) (a : α) :
    entries.set name a = entries ++ [(name, a)] := by
  induction entries with
  | nil => rfl
  | cons entry rest ih =>
      obtain ⟨key, b⟩ := entry
      rw [keys_cons, List.mem_cons, not_or] at h
      rw [set, if_neg (Ne.symm h.1), ih h.2, List.cons_append]

theorem setAll_eq_append {entries more : Entries α} (h : (keys (entries ++ more)).Nodup) :
    entries.setAll more = entries ++ more := by
  induction more generalizing entries with
  | nil => exact (List.append_nil entries).symm
  | cons entry rest ih =>
      obtain ⟨name, a⟩ := entry
      have happend : entries ++ (name, a) :: rest = entries ++ [(name, a)] ++ rest := by simp
      have hname : name ∉ entries.keys := by
        rw [keys, List.map_append, List.map_cons, List.nodup_append'] at h
        exact fun hmem => h.2.2 hmem List.mem_cons_self
      change (entries.set name a).setAll rest = _
      rw [happend] at h ⊢
      rw [set_of_not_mem hname, ih h]

def Agree (R : α → α → Prop) (left right : Entries α) : Prop :=
  ∀ name a b, left.get? name = some a → right.get? name = some b → R a b

theorem Agree.flip {R : α → α → Prop} {left right : Entries α} (h : left.Agree R right)
    (hR : ∀ name a b, left.get? name = some a → right.get? name = some b → R a b → R b a) :
    right.Agree R left :=
  fun name b a hb ha => hR name a b ha hb (h name a b ha hb)

theorem Agree.nil_left {R : α → α → Prop} {right : Entries α} : Agree R [] right := by
  rintro name a b ⟨⟩

theorem Agree.nil_right {R : α → α → Prop} {left : Entries α} : Agree R left [] := by
  rintro name a b - ⟨⟩

def All (P : α → Prop) (entries : Entries α) : Prop :=
  ∀ name a, entries.get? name = some a → P a

theorem All.nil {P : α → Prop} : All P [] := by
  rintro name a ⟨⟩

theorem All.cons {P : α → Prop} {key : String} {a : α} {rest : Entries α} (h : P a)
    (hrest : rest.All P) : All P ((key, a) :: rest) := by
  intro name b hb
  rw [get?_cons] at hb
  split at hb
  · exact Option.some.inj hb ▸ h
  · exact hrest name b hb

theorem Agree.self {R : α → α → Prop} {entries : Entries α} (h : entries.All fun a => R a a) :
    entries.Agree R entries := by
  intro name a b ha hb
  obtain rfl : a = b := Option.some.inj (ha.symm.trans hb)
  exact h name a ha

/-! ## Uniting -/

def beyond (left right : Entries α) : Entries α :=
  right.filter fun entry => !left.contains entry.1

/-- The entries on the left, combined with those of their names on the right, then the others. -/
def unite (combine : α → α → α) (left right : Entries α) : Entries α :=
  left.map (fun entry => (entry.1, (right.get? entry.1).elim entry.2 (combine entry.2))) ++
    beyond left right

variable {combine : α → α → α}

theorem keys_unite (left right : Entries α) :
    keys (unite combine left right) =
      keys left ++ (keys right).filter fun name => decide (name ∉ keys left) := by
  have hcontains (name : String) : (!left.contains name) = decide (name ∉ keys left) := by
    rw [contains, Bool.eq_iff_iff]
    simp [← get?_eq_none_iff]
  simp only [unite, beyond, keys, List.map_append, List.map_map, List.filter_map, Function.comp_def,
    hcontains]

theorem nodup_keys_unite {left right : Entries α} (hl : left.keys.Nodup) (hr : right.keys.Nodup) :
    (unite combine left right).keys.Nodup := by
  rw [keys_unite]
  refine List.Nodup.append hl (hr.filter _) fun name hleft hright => ?_
  simp only [List.mem_filter, decide_eq_true_eq] at hright
  exact hright.2 hleft

theorem get?_map (g : String → α → α) (entries : Entries α) (name : String) :
    get? (entries.map fun entry => (entry.1, g entry.1 entry.2)) name =
      (entries.get? name).map (g name) := by
  induction entries with
  | nil => rfl
  | cons entry rest ih =>
      obtain ⟨key, a⟩ := entry
      rw [List.map_cons, get?_cons, get?_cons, ih]
      by_cases h : name = key
      · simp [h]
      · simp [h]

theorem get?_filter (keep : String → Bool) (entries : Entries α) (name : String) :
    get? (entries.filter fun entry => keep entry.1) name =
      if keep name then entries.get? name else none := by
  induction entries with
  | nil => simp
  | cons entry rest ih =>
      obtain ⟨key, a⟩ := entry
      by_cases h : name = key
      · subst h
        by_cases hkeep : keep name = true
        · simp [get?_cons, hkeep]
        · simpa [get?_cons, hkeep] using ih
      · by_cases hkeep : keep key = true
        · simp [get?_cons, hkeep, h, ih]
        · simp [get?_cons, hkeep, h, ih]

theorem get?_unite (left right : Entries α) (name : String) :
    get? (unite combine left right) name =
      Option.merge combine (left.get? name) (right.get? name) := by
  rw [unite, beyond, get?_append, get?_map fun name a => (right.get? name).elim a (combine a),
    get?_filter fun name => !left.contains name, contains]
  cases left.get? name <;> cases right.get? name <;> rfl

theorem get?_unite_cases {left right : Entries α} {name : String} {c : α}
    (h : (left.unite combine right).get? name = some c) :
    left.get? name = some c ∨ right.get? name = some c ∨
      ∃ a b, left.get? name = some a ∧ right.get? name = some b ∧ combine a b = c := by
  rw [get?_unite] at h
  cases hl : left.get? name with
  | none =>
      cases hr : right.get? name with
      | none => simp [hl, hr] at h
      | some b => exact .inr (.inl (by simpa [hl, hr] using h))
  | some a =>
      cases hr : right.get? name with
      | none => exact .inl (by simpa [hl, hr] using h)
      | some b => exact .inr (.inr ⟨a, b, rfl, rfl, by simpa [hl, hr, Option.merge] using h⟩)

theorem unite_nil_left (right : Entries α) : unite combine [] right = right := by
  simp [unite, beyond, contains]

theorem unite_nil_right (left : Entries α) : unite combine left [] = left := by
  simp [unite, beyond]

/-- An entry from the right is united with the left before the rest of them. -/
theorem unite_set {left rest : Entries α} {name : String} (hl : left.keys.Nodup)
    (hr : rest.keys.Nodup) (hname : name ∉ rest.keys) (b : α) :
    unite combine (left.set name ((left.get? name).elim b (combine · b))) rest =
      unite combine left ((name, b) :: rest) := by
  refine ext_get? ?_ (nodup_keys_unite (nodup_keys_set hl _ _) hr) fun other => ?_
  · rw [keys_unite, keys_unite, keys_cons, keys_set]
    by_cases h : name ∈ keys left
    · simp [h]
    · simp only [h, if_false, List.append_assoc, List.mem_append, List.mem_singleton, not_or,
        not_false_eq_true, decide_true, List.filter_cons_of_pos, List.singleton_append]
      refine congrArg (keys left ++ name :: ·) (List.filter_congr fun other hother => ?_)
      have hne : other ≠ name := fun heq => hname (heq ▸ hother)
      simp [hne]
  · rw [get?_unite, get?_unite, get?_set, get?_cons]
    by_cases h : other = name
    · subst h
      rw [if_pos rfl, if_pos rfl, get?_eq_none_iff.mpr hname]
      cases left.get? other <;> rfl
    · rw [if_neg h, if_neg h]

theorem unite_self {entries : Entries α} (hdistinct : entries.keys.Nodup)
    (h : ∀ name a, entries.get? name = some a → combine a a = a) :
    unite combine entries entries = entries := by
  refine ext_get? ?_ (nodup_keys_unite hdistinct hdistinct) fun name => ?_
  · simp [keys_unite]
  · rw [get?_unite]
    cases hname : entries.get? name with
    | none => rfl
    | some a => simp [Option.merge, h name a hname]

theorem agree_unite_iff {R : α → α → Prop} {left middle right : Entries α}
    (h : ∀ name a b c, left.get? name = some a → middle.get? name = some b →
      right.get? name = some c → (R (combine a b) c ↔ R a c ∧ R b c)) :
    (left.unite combine middle).Agree R right ↔ left.Agree R right ∧ middle.Agree R right := by
  have hname (name : String) :
      (∀ a c, Option.merge combine (left.get? name) (middle.get? name) = some a →
          right.get? name = some c → R a c) ↔
        (∀ a c, left.get? name = some a → right.get? name = some c → R a c) ∧
          ∀ b c, middle.get? name = some b → right.get? name = some c → R b c := by
    cases ha : left.get? name with
    | none => cases middle.get? name <;> simp
    | some a =>
        cases hb : middle.get? name with
        | none => simp
        | some b =>
            cases hc : right.get? name with
            | none => simp
            | some c => simpa [Option.merge] using h name a b c ha hb hc
  simp only [Agree, get?_unite, hname, forall_and]

theorem keys_unite_perm {left right : Entries α} (hl : left.keys.Nodup) (hr : right.keys.Nodup) :
    (left.unite combine right).keys.Perm (right.unite combine left).keys := by
  refine (List.perm_ext_iff_of_nodup (nodup_keys_unite hl hr) (nodup_keys_unite hr hl)).mpr ?_
  intro name
  simp only [keys_unite, List.mem_append, List.mem_filter, decide_eq_true_eq]
  tauto

theorem agree_unite_comm {R : α → α → Prop} {left right : Entries α}
    (hl : left.All fun a => R a a) (hr : right.All fun a => R a a)
    (h : ∀ name a b, left.get? name = some a → right.get? name = some b →
      R (combine a b) (combine b a)) :
    (left.unite combine right).Agree R (right.unite combine left) := by
  intro name x y hx hy
  rw [get?_unite] at hx hy
  cases ha : left.get? name with
  | none =>
      simp only [ha, Option.merge_none_left, Option.merge_none_right] at hx hy
      obtain rfl : x = y := Option.some.inj (hx.symm.trans hy)
      exact hr name x hx
  | some a =>
      cases hb : right.get? name with
      | none =>
          simp only [ha, hb, Option.merge_none_left, Option.merge_none_right] at hx hy
          obtain rfl : x = y := Option.some.inj (hx.symm.trans hy)
          exact hl name x (ha.trans hx)
      | some b =>
          obtain rfl : combine a b = x := by simpa [ha, hb, Option.merge] using hx
          obtain rfl : combine b a = y := by simpa [ha, hb, Option.merge] using hy
          exact h name a b ha hb

theorem unite_assoc {left middle right : Entries α} (hl : left.keys.Nodup)
    (hm : middle.keys.Nodup) (hr : right.keys.Nodup)
    (h : ∀ name a b c, left.get? name = some a → middle.get? name = some b →
      right.get? name = some c → combine (combine a b) c = combine a (combine b c)) :
    unite combine (unite combine left middle) right =
      unite combine left (unite combine middle right) := by
  refine ext_get? ?_ (nodup_keys_unite (nodup_keys_unite hl hm) hr) fun name => ?_
  · simp only [keys_unite, List.filter_append, List.filter_filter, List.append_assoc,
      List.mem_append, List.mem_filter, decide_eq_true_eq]
    congr 2
    refine List.filter_congr fun name _ => ?_
    by_cases hleft : name ∈ keys left <;> simp [hleft]
  · simp only [get?_unite]
    cases ha : left.get? name with
    | none => cases middle.get? name <;> cases right.get? name <;> rfl
    | some a =>
        cases hb : middle.get? name with
        | none => cases right.get? name <;> rfl
        | some b =>
            cases hc : right.get? name with
            | none => rfl
            | some c => exact congrArg some (h name a b c ha hb hc)

end SearchClient.Entries
