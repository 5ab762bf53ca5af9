import Dashboard.Dictionary
import Mathlib.Data.String.Basic
import Mathlib.Data.List.Pairwise

/-!
Laws of dictionaries. Looking up after an insertion needs no order; a dictionary that is built by
insertions is ordered, and one that is ordered is rebuilt unchanged from its own entries.
-/
namespace Dashboard.Dictionary

variable {α β : Type}

/-- The keys increase strictly from entry to entry. -/
def IsOrdered (d : Dictionary α) : Prop :=
  List.Pairwise (fun a b => a.1 < b.1) d

@[simp] theorem isOrdered_nil : IsOrdered ([] : Dictionary α) := List.Pairwise.nil

@[simp] theorem find?_nil (key : String) : find? ([] : Dictionary α) key = none := rfl

theorem find?_cons (entry : String × α) (d : Dictionary α) (key : String) :
    find? (entry :: d) key = if key = entry.1 then some entry.2 else find? d key := by
  obtain ⟨first, value⟩ := entry
  by_cases h : key = first
  · subst h
    simp [find?]
  · have different : (key == first) = false := beq_eq_false_iff_ne.mpr h
    simp [find?, List.lookup_cons, different, h]

theorem find?_insert (d : Dictionary α) (key other : String) (value : α) :
    find? (insert key value d) other = if other = key then some value else find? d other := by
  induction d with
  | nil => simp [insert, find?_cons]
  | cons entry rest ih =>
    rw [insert]
    split
    · rw [find?_cons]
    · next notBefore =>
      split
      · next same =>
        rw [find?_cons, find?_cons]
        split_ifs with asked entryAsked
        · rfl
        · exact absurd (entryAsked.trans same.symm) asked
        · rfl
      · next different =>
        rw [find?_cons, find?_cons, ih]
        split_ifs with entryAsked asked
        · exact absurd (asked.symm.trans entryAsked) different
        · rfl
        · rfl
        · rfl

theorem contains_insert (d : Dictionary α) (key other : String) (value : α) :
    contains (insert key value d) other = (decide (other = key) || contains d other) := by
  rw [contains, find?_insert]
  by_cases h : other = key <;> simp [h, contains]

theorem mem_of_find?_eq_some {d : Dictionary α} {key : String} {value : α}
    (h : find? d key = some value) : (key, value) ∈ d := by
  induction d with
  | nil => simp at h
  | cons entry rest ih =>
    rw [find?_cons] at h
    split_ifs at h with same
    · obtain rfl := Option.some.inj h
      simp [same]
    · exact List.mem_cons_of_mem _ (ih h)

theorem mem_insert {d : Dictionary α} {key : String} {value : α} {entry : String × α}
    (h : entry ∈ insert key value d) : entry = (key, value) ∨ entry ∈ d := by
  induction d with
  | nil => exact Or.inl (by simpa [insert] using h)
  | cons first rest ih =>
    rw [insert] at h
    split_ifs at h with before same
    · simpa using h
    · rcases List.mem_cons.mp h with here | later
      · exact Or.inl here
      · exact Or.inr (List.mem_cons_of_mem _ later)
    · rcases List.mem_cons.mp h with here | later
      · exact Or.inr (by simp [here])
      · exact (ih later).imp id (List.mem_cons_of_mem _)

theorem IsOrdered.insert {d : Dictionary α} (ordered : IsOrdered d) (key : String) (value : α) :
    IsOrdered (Dictionary.insert key value d) := by
  induction d with
  | nil => simp [Dictionary.insert, IsOrdered]
  | cons first rest ih =>
    obtain ⟨below, tail⟩ := List.pairwise_cons.mp ordered
    rw [Dictionary.insert]
    split_ifs with before same
    · refine List.pairwise_cons.mpr ⟨fun entry member => ?_, ordered⟩
      rcases List.mem_cons.mp member with rfl | later
      · exact before
      · exact before.trans (below entry later)
    · exact List.pairwise_cons.mpr ⟨fun entry member => same ▸ below entry member, tail⟩
    · refine List.pairwise_cons.mpr ⟨fun entry member => ?_, ih tail⟩
      rcases mem_insert member with rfl | later
      · exact lt_of_le_of_ne (not_lt.mp before) (Ne.symm same)
      · exact below entry later

theorem isOrdered_foldl_insert (entries : List (String × α)) {d : Dictionary α}
    (ordered : IsOrdered d) :
    IsOrdered (entries.foldl (fun d entry => insert entry.1 entry.2 d) d) := by
  induction entries generalizing d with
  | nil => exact ordered
  | cons entry more ih => exact ih (ordered.insert entry.1 entry.2)

theorem isOrdered_ofList (entries : List (String × α)) : IsOrdered (ofList entries) :=
  isOrdered_foldl_insert entries isOrdered_nil

theorem mem_foldl_insert {entries : List (String × α)} {d : Dictionary α} {entry : String × α}
    (h : entry ∈ entries.foldl (fun d entry => insert entry.1 entry.2 d) d) :
    entry ∈ entries ∨ entry ∈ d := by
  induction entries generalizing d with
  | nil => exact Or.inr h
  | cons first more ih =>
    rcases ih h with later | here
    · exact Or.inl (List.mem_cons_of_mem _ later)
    · rcases mem_insert here with rfl | before
      · exact Or.inl (by simp)
      · exact Or.inr before

theorem mem_ofList {entries : List (String × α)} {entry : String × α}
    (h : entry ∈ ofList entries) : entry ∈ entries :=
  (mem_foldl_insert h).elim id fun none => absurd none (List.not_mem_nil)

theorem length_insert_le (d : Dictionary α) (key : String) (value : α) :
    (insert key value d).length ≤ d.length + 1 := by
  induction d with
  | nil => exact le_refl _
  | cons entry more ih =>
    rw [insert]
    split_ifs
    · exact le_refl _
    · exact Nat.le_succ _
    · exact Nat.succ_le_succ ih

theorem length_ofList_le (entries : List (String × α)) : (ofList entries).length ≤ entries.length := by
  have step (d : Dictionary α) :
      (entries.foldl (fun d entry => insert entry.1 entry.2 d) d).length ≤
        entries.length + d.length := by
    induction entries generalizing d with
    | nil => simp
    | cons entry more ih =>
      have first := length_insert_le d entry.1 entry.2
      have rest := ih (insert entry.1 entry.2 d)
      rw [List.foldl_cons, List.length_cons]
      omega
  exact step []

theorem insert_of_forall_lt {d : Dictionary α} {key : String} (value : α)
    (above : ∀ entry ∈ d, entry.1 < key) : insert key value d = d ++ [(key, value)] := by
  induction d with
  | nil => rfl
  | cons first rest ih =>
    have lower : first.1 < key := above first (by simp)
    rw [insert, if_neg (not_lt.mpr lower.le), if_neg (ne_of_gt lower),
      ih (fun entry member => above entry (List.mem_cons_of_mem _ member))]
    rfl

theorem foldl_insert_of_isOrdered {done entries : Dictionary α}
    (ordered : IsOrdered (done ++ entries)) :
    entries.foldl (fun d entry => insert entry.1 entry.2 d) done = done ++ entries := by
  induction entries generalizing done with
  | nil => simp
  | cons entry more ih =>
    have above : ∀ earlier ∈ done, earlier.1 < entry.1 := fun earlier member =>
      (List.pairwise_append.mp ordered).2.2 earlier member entry (by simp)
    rw [List.foldl_cons, insert_of_forall_lt entry.2 above, ih (by simpa using ordered)]
    simp

theorem ofList_of_isOrdered {d : Dictionary α} (ordered : IsOrdered d) : ofList d = d := by
  have whole : IsOrdered ([] ++ d) := ordered
  exact foldl_insert_of_isOrdered whole

theorem find?_foldl_insert (entries : List (String × α)) (d : Dictionary α) (key : String) :
    find? (entries.foldl (fun d entry => insert entry.1 entry.2 d) d) key =
      ((entries.reverse.lookup key).or (find? d key)) := by
  induction entries generalizing d with
  | nil => rfl
  | cons entry more ih =>
    have last : List.lookup key [entry] = if key = entry.1 then some entry.2 else none :=
      find?_cons entry [] key
    rw [List.foldl_cons, ih, find?_insert, List.reverse_cons, List.lookup_append, last]
    by_cases h : key = entry.1 <;> simp [h]

/-- Keys that occur once keep their values. -/
theorem find?_ofList {entries : List (String × α)} (distinct : (entries.map Prod.fst).Nodup)
    {entry : String × α} (member : entry ∈ entries) : find? (ofList entries) entry.1 = some entry.2 := by
  obtain ⟨before, behind, rfl⟩ := List.append_of_mem member
  rw [List.map_append, List.map_cons, List.nodup_append] at distinct
  obtain ⟨-, later, -⟩ := distinct
  have fresh : ∀ other ∈ behind.reverse, (entry.1 != other.1) = true := by
    intro other inside
    rw [bne_iff_ne]
    rintro same
    exact (List.nodup_cons.mp later).1 (same ▸ List.mem_map_of_mem (List.mem_reverse.mp inside))
  have found : (before ++ entry :: behind).reverse.lookup entry.1 = some entry.2 :=
    List.lookup_eq_some_iff.mpr ⟨behind.reverse, before.reverse, by simp, fresh⟩
  rw [ofList, find?_foldl_insert, found]
  rfl

/-- An ordered dictionary has what it lists. -/
theorem IsOrdered.find?_of_mem {d : Dictionary α} (ordered : IsOrdered d) {entry : String × α}
    (member : entry ∈ d) : find? d entry.1 = some entry.2 := by
  have distinct : (d.map Prod.fst).Nodup := List.pairwise_map.mpr (ordered.imp ne_of_lt)
  have found := find?_ofList distinct member
  rwa [ofList_of_isOrdered ordered] at found

/-- Dictionaries in order are equal when the same is found in them. -/
theorem IsOrdered.eq_of_find?_eq {d e : Dictionary α} (hd : IsOrdered d) (he : IsOrdered e)
    (same : ∀ key, find? d key = find? e key) : d = e := by
  have under {x y : Dictionary α} (hx : IsOrdered x) (same : ∀ key, find? x key = find? y key) : x ⊆ y :=
    fun entry member => mem_of_find?_eq_some (same entry.1 ▸ hx.find?_of_mem member)
  have distinct {x : Dictionary α} (hx : IsOrdered x) : x.Nodup :=
    List.Pairwise.imp (fun lt same => absurd (congrArg Prod.fst same) (ne_of_lt lt)) hx
  have perm : d.Perm e := (List.perm_ext_iff_of_nodup (distinct hd) (distinct he)).mpr fun entry =>
    ⟨fun member => under hd same member, fun member => under he (fun key => (same key).symm) member⟩
  exact perm.eq_of_pairwise (fun a b _ _ lt gt => absurd lt (lt_asymm gt)) hd he

theorem find?_override (base : Dictionary α) {changes : Dictionary α} (ordered : IsOrdered changes)
    (key : String) : find? (override base changes) key = (find? changes key).or (find? base key) := by
  have own := find?_foldl_insert changes [] key
  rw [show changes.foldl _ [] = changes from ofList_of_isOrdered ordered, find?_nil,
    Option.or_none] at own
  rw [override, find?_foldl_insert, own]

theorem IsOrdered.override {base : Dictionary α} (ordered : IsOrdered base) (changes : Dictionary α) :
    IsOrdered (Dictionary.override base changes) :=
  isOrdered_foldl_insert changes ordered

/-- An insertion may be made before the override or after it. -/
theorem override_insert {base d : Dictionary α} (hb : IsOrdered base) (hd : IsOrdered d) (key : String)
    (value : α) : override base (insert key value d) = insert key value (override base d) := by
  refine (hb.override _).eq_of_find?_eq ((hb.override d).insert key value) fun other => ?_
  rw [find?_override base (hd.insert key value), find?_insert, find?_insert, find?_override base hd]
  split_ifs <;> rfl

/-- The value under a key comes of the elements with that name. -/
theorem find?_ofList_congr {γ : Type} {elements : List γ} (name : γ → String) {f g : γ → α} {key : String}
    (same : ∀ a ∈ elements, name a = key → f a = g a) :
    find? (ofList (elements.map fun a => (name a, f a))) key =
      find? (ofList (elements.map fun a => (name a, g a))) key := by
  have alike (d e : Dictionary α) (start : find? d key = find? e key) :
      find? ((elements.map fun a => (name a, f a)).foldl (fun d e => insert e.1 e.2 d) d) key =
        find? ((elements.map fun a => (name a, g a)).foldl (fun d e => insert e.1 e.2 d) e) key := by
    induction elements generalizing d e with
    | nil => exact start
    | cons a more ih =>
      refine ih (fun b member => same b (List.mem_cons_of_mem _ member)) _ _ ?_
      rw [find?_insert, find?_insert, start]
      split_ifs with asked
      · exact congrArg some (same a List.mem_cons_self asked.symm)
      · rfl
  exact alike [] [] rfl

theorem contains_ofList (entries : List (String × α)) (key : String) :
    contains (ofList entries) key = entries.any fun entry => entry.1 = key := by
  have all (d : Dictionary α) : contains (entries.foldl (fun d e => insert e.1 e.2 d) d) key =
      (contains d key || entries.any fun entry => entry.1 = key) := by
    induction entries generalizing d with
    | nil => simp
    | cons entry more ih =>
      rw [List.foldl_cons, ih, contains_insert, List.any_cons, ← Bool.or_assoc,
        Bool.or_comm (contains d key), decide_eq_decide.mpr eq_comm]
  exact (all []).trans (Bool.false_or _)

theorem contains_eq_true_iff {d : Dictionary α} {key : String} :
    contains d key = true ↔ key ∈ keys d := by
  rw [contains, Option.isSome_iff_exists]
  constructor
  · rintro ⟨value, found⟩
    exact List.mem_map.mpr ⟨(key, value), mem_of_find?_eq_some found, rfl⟩
  · intro member
    obtain ⟨entry, inside, rfl⟩ := List.mem_map.mp member
    cases found : find? d entry.1 with
    | some value => exact ⟨value, rfl⟩
    | none => simpa using List.lookup_eq_none_iff.mp found entry inside

theorem mem_ordered {texts : List String} {text : String} : text ∈ ordered texts ↔ text ∈ texts := by
  rw [ordered, ← contains_eq_true_iff, contains_ofList, List.any_map]
  simp

theorem pairwise_ordered (texts : List String) : (ordered texts).Pairwise (· < ·) :=
  List.pairwise_map.mpr (isOrdered_ofList _)

/-- Which entries are kept may depend on their keys only. -/
theorem find?_filter (d : Dictionary α) (keeps : String → Bool) (key : String) :
    find? (List.filter (fun entry => keeps entry.1) d) key =
      if keeps key then find? d key else none := by
  induction d with
  | nil => simp
  | cons entry rest ih =>
    rw [find?_cons]
    by_cases same : key = entry.1
    · subst same
      cases kept : keeps entry.1 with
      | true => simp [kept, find?_cons]
      | false => simp [kept, ih]
    · rw [if_neg same, ← ih, List.filter_cons]
      split_ifs
      · rw [find?_cons, if_neg same]
      · rfl

theorem find?_erase (d : Dictionary α) (key other : String) :
    find? (erase d key) other = if other = key then none else find? d other := by
  rw [erase]
  refine (find?_filter d (fun name => decide (name ≠ key)) other).trans ?_
  by_cases h : other = key <;> simp [h]

theorem IsOrdered.filter {d : Dictionary α} (ordered : IsOrdered d) (keeps : String × α → Bool) :
    IsOrdered (List.filter keeps d) :=
  List.Pairwise.filter keeps ordered

/-- Values may be changed in place without moving an entry. -/
theorem IsOrdered.map {d : Dictionary α} (ordered : IsOrdered d) (f : String × α → β) :
    IsOrdered (List.map (fun entry => (entry.1, f entry)) d) :=
  List.pairwise_map.mpr ordered

end Dashboard.Dictionary
