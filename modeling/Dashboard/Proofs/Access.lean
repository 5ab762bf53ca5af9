import Mathlib.Logic.Relation
import Dashboard.Access
import Dashboard.Proofs.Text

/-!
Where permissions come from. Roles and permissions are a matter of which roles the role headers list,
as a set: neither the order of the headers, nor how a list is spread over them, nor any other header
plays a part.
-/
namespace Dashboard.Access

variable {headers others front back : List (String × String)} {header : String × String}
  {item value : String} {values : List String} {role : Role}

def roleHeader : String := "X-User-Roles"

/-- The name of the header is that of role headers, whatever the case of its ASCII letters. -/
def IsRoleHeader (header : String × String) : Prop := header.1.toLower = roleHeader.toLower

instance : DecidablePred IsRoleHeader := fun _ => inferInstanceAs (Decidable (_ = _))

/-- What stands between the commas of a list. -/
def items (value : String) : List String := (Text.pieces ',' value.toList).map String.ofList

/-- Trimmed and in lower case, an item is the text of the role. -/
def Spells (item : String) (role : Role) : Prop := (Text.trimmed item).toLower = role.text

instance (item : String) (role : Role) : Decidable (Spells item role) :=
  inferInstanceAs (Decidable (_ = _))

/-- Some role header lists the role. -/
def Lists (headers : List (String × String)) (role : Role) : Prop :=
  ∃ header ∈ headers, IsRoleHeader header ∧ ∃ item ∈ items header.2, Spells item role

/-- Two users may do the same, and in the same roles. -/
def SameAccess (u v : User) : Prop := u.roles = v.roles ∧ u.permissions = v.permissions

/-! What one list of roles comes to. -/

theorem Role.mem_all (role : Role) : role ∈ all := by cases role <;> decide

theorem Role.text_injective {role other : Role} (h : role.text = other.text) : role = other := by
  cases role <;> cases other <;> first | rfl | exact absurd h (by decide)

theorem Role.ofText?_eq_some : ofText? item = some role ↔ Spells item role := by
  have spelled_of_found {other : Role} (found : ofText? item = some other) : Spells item other := by
    have same := List.find?_some found
    exact (of_decide_eq_true same).symm
  refine ⟨spelled_of_found, fun spelled => ?_⟩
  have listed : (ofText? item).isSome = true := by
    refine List.find?_isSome.mpr ⟨role, role.mem_all, ?_⟩
    exact decide_eq_true (Eq.symm spelled)
  obtain ⟨other, found⟩ := Option.isSome_iff_exists.mp listed
  rw [found, Role.text_injective ((spelled_of_found found).symm.trans spelled)]

theorem nonEmpty_eq_some {text : String} :
    nonEmpty value = some text ↔ Text.trimmed value = text ∧ text ≠ "" := by
  rw [nonEmpty]
  split_ifs with empty
  · have none : Text.trimmed value = "" := by simpa using empty
    rw [none]
    exact iff_of_false (fun h => nomatch h) fun h => h.2 h.1.symm
  · constructor
    · rintro ⟨⟩
      exact ⟨rfl, by simpa using empty⟩
    · rintro ⟨rfl, -⟩
      rfl

theorem spells_trimmed : Spells (Text.trimmed item) role ↔ Spells item role := by
  rw [Spells, Spells, Text.trimmed_trimmed]

/-- An item that stands for a role is not blank. -/
theorem Spells.ne_empty (h : Spells item role) : Text.trimmed item ≠ "" := by
  intro blank
  rw [Spells, blank] at h
  cases role <;> exact absurd h (by decide +kernel)

/-- Blank items are left out before roles are looked up, and no role is lost by that. -/
theorem mem_roles_listItems :
    role ∈ (listItems value).filterMap Role.ofText? ↔ ∃ item ∈ items value, Spells item role := by
  simp only [listItems, items, List.mem_filterMap, List.mem_map, Role.ofText?_eq_some,
    nonEmpty_eq_some]
  constructor
  · rintro ⟨-, ⟨piece, member, rfl, -⟩, spelled⟩
    exact ⟨_, ⟨piece, member, rfl⟩, spells_trimmed.mp spelled⟩
  · rintro ⟨-, ⟨piece, member, rfl⟩, spelled⟩
    exact ⟨_, ⟨piece, member, rfl, spelled.ne_empty⟩, spells_trimmed.mpr spelled⟩

/-! What headers come to. -/

theorem toLower_roleHeader : roleHeader.toLower = "x-user-roles" := by decide +kernel

theorem isRoleHeader_iff : IsRoleHeader header ↔
    header.1.toList.map Char.toLower = "x-user-roles".toList := by
  have lowered : header.1.toLower = header.1.map Char.toLower := rfl
  rw [IsRoleHeader, toLower_roleHeader, ← String.toList_inj, lowered, String.toList_map]

theorem mem_valuesOf_roles :
    value ∈ valuesOf "x-user-roles" headers ↔
      ∃ header ∈ headers, IsRoleHeader header ∧ header.2 = value := by
  rw [valuesOf, List.mem_filterMap]
  refine exists_congr fun header => and_congr_right fun _ => ?_
  rw [IsRoleHeader, toLower_roleHeader]
  split_ifs with named
  · simp [named]
  · simp [named]

theorem mem_roles_ofHeaders : role ∈ (User.ofHeaders headers).roles ↔ Lists headers role := by
  simp only [User.ofHeaders, User.ofRoles, List.mem_filter, role.mem_all, true_and,
    List.contains_eq_mem, decide_eq_true_eq, List.mem_flatMap, mem_valuesOf_roles,
    mem_roles_listItems]
  constructor
  · rintro ⟨-, ⟨header, member, named, rfl⟩, spelled⟩
    exact ⟨header, member, named, spelled⟩
  · rintro ⟨header, member, named, spelled⟩
    exact ⟨_, ⟨header, member, named, rfl⟩, spelled⟩

theorem has_ofHeaders {p : Permission} :
    (User.ofHeaders headers).has p = true ↔ ∃ role, Lists headers role ∧ p ∈ role.permissions := by
  have known : p ∈ Permission.all := by cases p <;> decide
  simp only [← mem_roles_ofHeaders, User.has, User.ofHeaders, User.ofRoles, List.contains_eq_mem,
    List.mem_filter, Role.mem_all, known, true_and, decide_eq_true_eq, List.any_eq_true]

/-- What is kept of a list is told by what is in it. -/
theorem filter_contains_filter {α : Type} [DecidableEq α] (keeps : α → Bool) (all : List α) :
    all.filter (all.filter keeps).contains = all.filter keeps := by
  refine List.filter_congr fun a known => ?_
  simp [List.mem_filter, known]

/-- Headers that list the same roles give the same access. -/
theorem sameAccess_of_lists (same : ∀ role, Lists headers role ↔ Lists others role) :
    SameAccess (User.ofHeaders headers) (User.ofHeaders others) := by
  have roles (role : Role) : (User.ofHeaders headers).roles.contains role =
      (User.ofHeaders others).roles.contains role := by
    rw [Bool.eq_iff_iff]
    simp only [List.contains_eq_mem, decide_eq_true_eq, mem_roles_ofHeaders, same]
  have held (p : Permission) :
      (User.ofHeaders headers).has p = (User.ofHeaders others).has p := by
    rw [Bool.eq_iff_iff, has_ofHeaders, has_ofHeaders]
    simp only [same]
  constructor
  · calc (User.ofHeaders headers).roles
        = Role.all.filter (User.ofHeaders headers).roles.contains :=
          (filter_contains_filter _ _).symm
      _ = Role.all.filter (User.ofHeaders others).roles.contains := by rw [funext roles]
      _ = (User.ofHeaders others).roles := filter_contains_filter _ _
  · calc (User.ofHeaders headers).permissions
        = Permission.all.filter (User.ofHeaders headers).has := (filter_contains_filter _ _).symm
      _ = Permission.all.filter (User.ofHeaders others).has := by rw [funext held]
      _ = (User.ofHeaders others).permissions := filter_contains_filter _ _

/-! What changes of the headers leave the listed roles as they are. -/

theorem lists_append : Lists (headers ++ others) role ↔ Lists headers role ∨ Lists others role := by
  simp only [Lists, List.mem_append, or_and_right, exists_or]

theorem Lists.mono (inside : headers ⊆ others) (h : Lists headers role) : Lists others role := by
  obtain ⟨header, member, listed⟩ := h
  exact ⟨header, inside member, listed⟩

theorem lists_singleton : Lists [header] role ↔
    IsRoleHeader header ∧ ∃ item ∈ items header.2, Spells item role := by
  simp [Lists]

theorem not_lists_of_others (other : ∀ header ∈ headers, ¬IsRoleHeader header) :
    ¬Lists headers role := by
  rintro ⟨header, member, named, -⟩
  exact other header member named

/-- The change is made in one place, and the headers before and behind it stay. -/
theorem lists_congr_between (same : Lists headers role ↔ Lists others role) :
    Lists (front ++ headers ++ back) role ↔ Lists (front ++ others ++ back) role := by
  rw [lists_append, lists_append, lists_append, lists_append, same]

/-- The items of lists that are joined by commas. -/
theorem items_intercalate (some : values ≠ []) :
    items (",".intercalate values) = values.flatMap items := by
  have comma : ",".toList = [','] := String.toList_ofList
  rw [items, String.toList_intercalate, comma]
  induction values with
  | nil => exact absurd rfl some
  | cons first more ih =>
    cases more with
    | nil => simp [items]
    | cons second others =>
      rw [List.map_cons, List.map_cons, List.intercalate_cons_cons, List.append_assoc,
        List.singleton_append, Text.pieces_append_separator, List.map_append, List.flatMap_cons]
      exact congrArg _ (ih (List.cons_ne_nil _ _))

theorem exists_item_intercalate : (∃ item ∈ items (",".intercalate values), Spells item role) ↔
    ∃ value ∈ values, ∃ item ∈ items value, Spells item role := by
  cases values with
  | nil =>
    refine iff_of_false ?_ (by simp)
    rintro ⟨item, member, spelled⟩
    obtain rfl : item = "" := by simpa [items, String.intercalate, Text.pieces] using member
    exact spelled.ne_empty (by decide +kernel)
  | cons first more =>
    simp only [items_intercalate (List.cons_ne_nil first more), List.mem_flatMap]
    constructor
    · rintro ⟨item, ⟨value, member, inside⟩, spelled⟩
      exact ⟨value, member, item, inside, spelled⟩
    · rintro ⟨value, member, item, inside, spelled⟩
      exact ⟨item, ⟨value, member, inside⟩, spelled⟩

/-- One header with a joined list lists what headers with the parts list. -/
theorem lists_spread (named : IsRoleHeader header)
    (joined : header.2 = ",".intercalate (others.map Prod.snd))
    (all : ∀ other ∈ others, IsRoleHeader other) : Lists [header] role ↔ Lists others role := by
  rw [lists_singleton, joined, exists_item_intercalate, and_iff_right named]
  simp only [List.mem_map, exists_exists_and_eq_and]
  exact exists_congr fun other => and_congr_right fun member => (and_iff_right (all other member)).symm

/-- Items of a list that are put behind it once more are listed already. -/
theorem lists_repeated {name : String} {again : List String} (inside : again ⊆ items value) :
    Lists [(name, ",".intercalate (value :: again))] role ↔ Lists [(name, value)] role := by
  rw [lists_singleton, lists_singleton]
  refine and_congr_right fun _ => ?_
  rw [exists_item_intercalate]
  constructor
  · rintro ⟨part, member, item, listed, spelled⟩
    rcases List.mem_cons.mp member with rfl | repeated
    · exact ⟨item, listed, spelled⟩
    · have whole : items part = [part] := by
        obtain ⟨piece, between, rfl⟩ := List.mem_map.mp (inside repeated)
        rw [items, String.toList_ofList,
          Text.pieces_eq_singleton (Text.separator_not_mem_pieces between)]
        rfl
      rw [whole, List.mem_singleton] at listed
      exact ⟨part, inside repeated, listed ▸ spelled⟩
  · rintro ⟨item, listed, spelled⟩
    exact ⟨value, List.mem_cons_self, item, listed, spelled⟩

/-- One change of the headers that is none of the roles they list. -/
inductive Rearranges : List (String × String) → List (String × String) → Prop
  | permute {before after} (permuted : before.Perm after) : Rearranges before after
  /-- One list is spread over several role headers. -/
  | spread {first last header parts} (named : IsRoleHeader header)
      (joined : header.2 = ",".intercalate (parts.map Prod.snd))
      (all : ∀ part ∈ parts, IsRoleHeader part) :
      Rearranges (first ++ [header] ++ last) (first ++ parts ++ last)
  /-- Items of a list are written behind it once more. -/
  | repeatItems {first last name list again} (inside : again ⊆ items list) :
      Rearranges (first ++ [(name, list)] ++ last)
        (first ++ [(name, ",".intercalate (list :: again))] ++ last)
  | repeatHeaders {before again} (inside : again ⊆ before) : Rearranges before (before ++ again)
  | addUnrelated {first last unrelated} (other : ∀ header ∈ unrelated, ¬IsRoleHeader header) :
      Rearranges (first ++ last) (first ++ unrelated ++ last)

theorem Rearranges.lists (h : Rearranges headers others) (role : Role) :
    Lists headers role ↔ Lists others role := by
  cases h with
  | permute permuted => exact ⟨Lists.mono permuted.subset, Lists.mono permuted.symm.subset⟩
  | spread named joined all => exact lists_congr_between (lists_spread named joined all)
  | repeatItems inside => exact lists_congr_between (lists_repeated inside).symm
  | repeatHeaders inside =>
    rw [lists_append]
    exact ⟨Or.inl, fun listed => listed.elim id (Lists.mono inside)⟩
  | addUnrelated other =>
    rw [lists_append, lists_append, lists_append, or_iff_left (not_lists_of_others other)]

/-- Any number of changes, made or undone. -/
theorem lists_of_rearranged (h : Relation.EqvGen Rearranges headers others) (role : Role) :
    Lists headers role ↔ Lists others role := by
  induction h with
  | rel _ _ change => exact change.lists role
  | refl => exact Iff.rfl
  | symm _ _ _ ih => exact ih.symm
  | trans _ _ _ _ _ first second => exact first.trans second

/-- Access is decided by the items of role headers alone: a permission is granted exactly when some
item is a role that grants it. So neither the order of the headers, nor the spreading of a list over
several role headers, nor repeated roles, nor other headers make a difference. -/
theorem access_of_roleHeaders (headers : List (String × String)) :
    (∀ p, (User.ofHeaders headers).has p = true ↔
      ∃ header ∈ headers, IsRoleHeader header ∧
        ∃ item ∈ items header.2, ∃ role, Spells item role ∧ p ∈ role.permissions) ∧
    ∀ others, Relation.EqvGen Rearranges headers others →
      SameAccess (User.ofHeaders headers) (User.ofHeaders others) := by
  refine ⟨fun p => ?_, fun others changes => sameAccess_of_lists (lists_of_rearranged changes)⟩
  rw [has_ofHeaders]
  constructor
  · rintro ⟨role, ⟨header, member, named, item, inside, spelled⟩, granted⟩
    exact ⟨header, member, named, item, inside, role, spelled, granted⟩
  · rintro ⟨header, member, named, item, inside, role, spelled, granted⟩
    exact ⟨role, ⟨header, member, named, item, inside, spelled⟩, granted⟩

/-- A list of three roles, one of them unknown, and a header of no role. -/
def listed : List (String × String) :=
  [("X-User-Roles", "guest, Author,consumer"), ("X-User-Email", "ana@example.com")]

/-- The roles in two headers. -/
def forwarded : List (String × String) :=
  [("x-user-roles", "consumer"), ("X-USER-ROLES", "guest, Author")]

theorem rearranges_forwarded : Relation.EqvGen Rearranges listed forwarded := by
  have email : ∀ header ∈ listed.tail, ¬IsRoleHeader header := by
    simp only [isRoleHeader_iff]
    decide +kernel
  have named : IsRoleHeader ("X-User-Roles", "guest, Author,consumer") := by
    rw [isRoleHeader_iff]
    decide +kernel
  have joined : "guest, Author,consumer" = ",".intercalate (forwarded.reverse.map Prod.snd) := by
    rw [← String.toList_inj, String.toList_intercalate]
    decide +kernel
  have all : ∀ header ∈ forwarded.reverse, IsRoleHeader header := by
    simp only [isRoleHeader_iff]
    decide +kernel
  have spread : Rearranges ([] ++ [("X-User-Roles", "guest, Author,consumer")] ++ listed.tail)
      ([] ++ forwarded.reverse ++ listed.tail) :=
    .spread named joined all
  have added : Rearranges (forwarded.reverse ++ []) (forwarded.reverse ++ listed.tail ++ []) :=
    .addUnrelated email
  have turned : Rearranges forwarded.reverse forwarded := .permute (List.reverse_perm _)
  rw [List.append_nil, List.append_nil] at added
  exact .trans _ _ _ (.rel _ _ spread) (.trans _ _ _ (.symm _ _ (.rel _ _ added)) (.rel _ _ turned))

theorem access_of_roleHeaders_forwarded : Relation.EqvGen Rearranges listed forwarded ∧
    (User.ofHeaders listed).has .editDashboard = true ∧
      SameAccess (User.ofHeaders listed) (User.ofHeaders forwarded) := by
  refine ⟨rearranges_forwarded, ((access_of_roleHeaders listed).1 .editDashboard).mpr ?_,
    (access_of_roleHeaders listed).2 forwarded rearranges_forwarded⟩
  exact ⟨_, List.mem_cons_self, by decide +kernel, " Author", by decide +kernel, .author,
    by decide +kernel, by decide⟩

end Dashboard.Access
