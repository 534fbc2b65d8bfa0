import WatsonIotp.Json.Value
import Mathlib.Data.List.Basic
import Mathlib.Data.List.Pairwise

/-!
# Objects as maps

jsoncpp keeps the members of an object in a map, so they are in the order of their names
and no name is there twice. Two such objects are equal if every name has the same value in
both (`Has.ext`), and that is how encodings are compared here: `Has` says what is under
each name, and `Has.putAll` what is under each name after an encoder has assigned the
members of a table, leaving out those that have no value.
-/

namespace Json

variable {D : Type}

/-- The members are in the order of their names, and no name is there twice. -/
def Ordered (members : List (StdString × Value D)) : Prop := members.Pairwise (·.1 < ·.1)

/-- What is under each name. -/
abbrev Content (D : Type) : Type := StdString → Option (Value D)

/-! ### Ordered lists of members -/

section Members

variable {members members' : List (StdString × Value D)} {name : StdString} {value : Value D}

theorem lt_of_not_lt {a b : StdString} (h : ¬ a < b) (hne : a ≠ b) : b < a :=
  (List.le_iff_lt_or_eq.mp (List.not_lt.mp h)).resolve_right hne.symm

theorem ne_of_lt {a b : StdString} (h : a < b) : a ≠ b := by
  rintro rfl
  exact List.lt_irrefl a h

theorem lookup_cons_ite {α : Type} (name : StdString) (a : α) (l : List (StdString × α))
    (key : StdString) :
    ((name, a) :: l).lookup key = if key = name then some a else l.lookup key := by
  rw [List.lookup_cons]
  by_cases hkey : key = name
  · rw [if_pos hkey, beq_iff_eq.mpr hkey]
  · rw [if_neg hkey, beq_eq_false_iff_ne.mpr hkey]

theorem lookup_head {α : Type} (m : StdString × α) (l : List (StdString × α)) :
    (m :: l).lookup m.1 = some m.2 := (lookup_cons_ite m.1 m.2 l m.1).trans (if_pos rfl)

theorem lookup_map_self {α : Type} (f : StdString → α) (keys : List StdString) (key : StdString) :
    (keys.map fun name => (name, f name)).lookup key =
      if keys.contains key then some (f key) else none := by
  induction keys with
  | nil => rfl
  | cons name keys ih =>
      rw [List.map_cons, lookup_cons_ite, ih, List.contains_cons]
      by_cases hkey : key = name
      · subst hkey
        rw [if_pos rfl, beq_self_eq_true, Bool.true_or, if_pos rfl]
      · rw [if_neg hkey, beq_eq_false_iff_ne.mpr hkey, Bool.false_or]

theorem lookup_eq_none_of_forall_ne {α : Type} {l : List (StdString × α)} {key : StdString}
    (h : ∀ m ∈ l, key ≠ m.1) : l.lookup key = none :=
  List.lookup_eq_none_iff.mpr fun m hm => bne_iff_ne.mpr (h m hm)

theorem lookup_eq_none_of_lt (h : ∀ m ∈ members, name < m.1) : members.lookup name = none :=
  lookup_eq_none_of_forall_ne fun m hm => ne_of_lt (h m hm)

/-- A name before the first of an ordered list is not in it. -/
theorem Ordered.lookup_eq_none {m : StdString × Value D} (h : Ordered (m :: members))
    (hlt : name < m.1) : (m :: members).lookup name = none := by
  apply lookup_eq_none_of_lt
  refine List.forall_mem_cons.mpr ⟨hlt, ?_⟩
  intro m' hm'
  exact List.lt_trans hlt (List.rel_of_pairwise_cons h hm')

theorem lookup_setMember (key : StdString) :
    (setMember name value members).lookup key =
      if key = name then some value else members.lookup key := by
  induction members with
  | nil => exact lookup_cons_ite name value [] key
  | cons m members ih =>
      obtain ⟨name', value'⟩ := m
      rw [setMember]
      split_ifs with hlt hkey heq hkey hkey
      · rw [lookup_cons_ite, if_pos hkey]
      · rw [lookup_cons_ite, if_neg hkey]
      · rw [lookup_cons_ite, if_pos hkey]
      · rw [lookup_cons_ite, lookup_cons_ite, if_neg hkey, if_neg (heq ▸ hkey)]
      · rw [lookup_cons_ite, ih, if_pos hkey, if_neg (hkey ▸ heq)]
      · rw [lookup_cons_ite, lookup_cons_ite, ih, if_neg hkey]

theorem mem_setMember {m : StdString × Value D} (h : m ∈ setMember name value members) :
    m = (name, value) ∨ m ∈ members := by
  induction members with
  | nil => exact .inl (List.mem_singleton.mp h)
  | cons m' members ih =>
      obtain ⟨name', value'⟩ := m'
      rw [setMember] at h
      split_ifs at h
      · exact List.mem_cons.mp h
      · exact (List.mem_cons.mp h).imp_right (List.mem_cons_of_mem _)
      · obtain rfl | h := List.mem_cons.mp h
        · exact .inr List.mem_cons_self
        · exact (ih h).imp_right (List.mem_cons_of_mem _)

theorem Ordered.setMember (h : Ordered members) : Ordered (setMember name value members) := by
  induction members with
  | nil => exact List.pairwise_singleton _ _
  | cons m members ih =>
      obtain ⟨name', value'⟩ := m
      obtain ⟨hfirst, hrest⟩ := List.pairwise_cons.mp h
      rw [Json.setMember]
      split_ifs with hlt heq
      · refine List.pairwise_cons.mpr ⟨fun m hm => ?_, h⟩
        obtain rfl | hm := List.mem_cons.mp hm
        · exact hlt
        · exact List.lt_trans hlt (hfirst m hm)
      · refine List.pairwise_cons.mpr ⟨fun m hm => ?_, hrest⟩
        exact heq ▸ hfirst m hm
      · refine List.pairwise_cons.mpr ⟨fun m hm => ?_, ih hrest⟩
        obtain rfl | hm := mem_setMember hm
        · exact lt_of_not_lt hlt heq
        · exact hfirst m hm

/-- Ordered lists in which every name has the same value are equal. -/
theorem Ordered.ext (h : Ordered members) (h' : Ordered members')
    (hsame : ∀ key, members.lookup key = members'.lookup key) : members = members' := by
  induction members generalizing members' with
  | nil =>
      cases members' with
      | nil => rfl
      | cons m' members' =>
          have hhead := (hsame m'.1).trans (lookup_head m' members')
          cases hhead
  | cons m members ih =>
      cases members' with
      | nil =>
          have hhead := (hsame m.1).symm.trans (lookup_head m members)
          cases hhead
      | cons m' members' =>
          obtain ⟨name, value⟩ := m
          obtain ⟨name', value'⟩ := m'
          obtain ⟨hfirst, hrest⟩ := List.pairwise_cons.mp h
          obtain ⟨hfirst', hrest'⟩ := List.pairwise_cons.mp h'
          have hname : name = name' := by
            by_contra hne
            by_cases hlt : name < name'
            · have hhead := (lookup_head (name, value) members).symm.trans (hsame name)
              rw [h'.lookup_eq_none hlt] at hhead
              cases hhead
            · have hhead := (hsame name').trans (lookup_head (name', value') members')
              rw [h.lookup_eq_none (lt_of_not_lt hlt hne)] at hhead
              cases hhead
          obtain rfl := hname
          obtain rfl : value = value' := Option.some.inj <|
            (lookup_head (name, value) members).symm.trans <|
              (hsame name).trans (lookup_head (name, value') members')
          congr 1
          apply ih hrest hrest'
          intro key
          obtain rfl | hne := eq_or_ne key name
          · rw [lookup_eq_none_of_lt hfirst, lookup_eq_none_of_lt hfirst']
          · have hkey := hsame key
            rwa [lookup_cons_ite, lookup_cons_ite, if_neg hne, if_neg hne] at hkey

end Members

namespace Value

/-! ### What an object has -/

/-- The value has the members that `content` tells, and no others; null has none. -/
def Has (content : Content D) : Value D → Prop
  | .nullValue => ∀ key, content key = none
  | .objectValue members =>
      members ≠ [] ∧ Ordered members ∧ ∀ key, members.lookup key = content key
  | _ => False

variable {v w : Value D} {content content' : Content D}

theorem has_nullValue : (nullValue : Value D).Has fun _ => none := fun _ => rfl

theorem Has.congr (h : v.Has content) (hsame : ∀ key, content key = content' key) :
    v.Has content' := by
  rwa [← funext hsame]

theorem Has.content_eq (h : v.Has content) (h' : v.Has content') (key : StdString) :
    content key = content' key := by
  cases v with
  | nullValue => exact (h key).trans (h' key).symm
  | objectValue members => exact (h.2.2 key).symm.trans (h'.2.2 key)
  | _ => exact h.elim

/-- There is one value with these members. -/
theorem Has.ext (h : v.Has content) (h' : w.Has content) : v = w := by
  have hnot : ∀ {members : List (StdString × Value D)}, (∀ key, content key = none) →
      ¬ (objectValue members).Has content := by
    rintro members hnone ⟨hne, -, hlookup⟩
    obtain ⟨m, members, rfl⟩ := List.exists_cons_of_ne_nil hne
    have hhead := (lookup_head m members).symm.trans ((hlookup m.1).trans (hnone m.1))
    cases hhead
  cases v with
  | nullValue =>
      cases w with
      | nullValue => rfl
      | objectValue members => exact absurd h' (hnot h)
      | _ => exact h'.elim
  | objectValue members =>
      cases w with
      | nullValue => exact absurd h (hnot h')
      | objectValue members' =>
          exact congrArg _ (h.2.1.ext h'.2.1 fun key => (h.2.2 key).trans (h'.2.2 key).symm)
      | _ => exact h'.elim
  | _ => exact h.elim

theorem Has.memberOr (h : v.Has content) (key : StdString) (defaultValue : Value D) :
    v.memberOr key defaultValue = (content key).getD defaultValue := by
  cases v with
  | nullValue =>
      rw [h key]
      rfl
  | objectValue members => exact congrArg (Option.getD · defaultValue) (h.2.2 key)
  | _ => exact h.elim

theorem Has.objectLike (h : v.Has content) : v.ObjectLike := by
  cases v with
  | nullValue => trivial
  | objectValue members => trivial
  | _ => exact h.elim

theorem Has.assign (h : v.Has content) (name : StdString) (value : Value D) :
    (v.assign name value).Has fun key => if key = name then some value else content key := by
  cases v with
  | nullValue =>
      refine ⟨List.cons_ne_nil _ _, List.pairwise_singleton _ _, fun key => ?_⟩
      refine (lookup_cons_ite name value [] key).trans ?_
      change _ = if key = name then some value else content key
      rw [h key, List.lookup_nil]
  | objectValue members =>
      obtain ⟨-, hordered, hlookup⟩ := h
      refine ⟨fun hnil => ?_, hordered.setMember, fun key => ?_⟩
      · have hself : (setMember name value members).lookup name = _ := lookup_setMember name
        rw [hnil, if_pos rfl] at hself
        cases hself
      · rw [lookup_setMember, hlookup]
  | _ => exact h.elim

/-! ### Tables of members -/

/-- Assign the member, if it has a value. -/
def put (v : Value D) (name : StdString) (value : Option (Value D)) : Value D :=
  value.elim v (v.assign name)

/-- The step of an encoder that leaves a member out on a condition. -/
theorem ite_assign_eq_put {c : Prop} [Decidable c] (v x : Value D) (name : StdString) :
    (if c then v else v.assign name x) = v.put name (if c then none else some x) := by
  split <;> rfl

/-- Assign the members of a table that have a value, in its order. -/
def putAll (v : Value D) (table : List (StdString × Option (Value D))) : Value D :=
  table.foldl (fun v m => v.put m.1 m.2) v

/-- What a table has under a name. -/
def tabled (table : List (StdString × Option (Value D))) : Content D :=
  fun key => (table.lookup key).join

theorem Has.put (h : v.Has content) (name : StdString) (value : Option (Value D)) :
    (v.put name value).Has fun key =>
      if key = name then value.or (content key) else content key := by
  cases value with
  | none => exact h.congr fun key => by simp
  | some value => exact h.assign name value

/-- The members of the table are over those that were there. -/
theorem Has.putAll {table : List (StdString × Option (Value D))} (h : v.Has content)
    (hnames : (table.map Prod.fst).Nodup) :
    (v.putAll table).Has fun key => (tabled table key).or (content key) := by
  induction table generalizing v content with
  | nil => exact h
  | cons m table ih =>
      obtain ⟨name, value⟩ := m
      obtain ⟨hname, hnames⟩ := List.nodup_cons.mp hnames
      refine (ih (h.put name value) hnames).congr fun key => ?_
      rw [tabled, tabled, lookup_cons_ite]
      split_ifs with hkey
      · have hnone : table.lookup key = none := by
          apply lookup_eq_none_of_forall_ne
          rintro m hm rfl
          exact hname (List.mem_map.mpr ⟨m, hm, hkey⟩)
        rw [hnone]
        rfl
      · rfl

/-- A table over no members. -/
theorem has_putAll_nullValue {table : List (StdString × Option (Value D))}
    (hnames : (table.map Prod.fst).Nodup) : ((nullValue : Value D).putAll table).Has
      (tabled table) :=
  (has_nullValue.putAll hnames).congr fun _ => Option.or_none

/-- Tables that differ in one row differ under its name. -/
theorem tabled_replace (front : List (StdString × Option (Value D)))
    {back : List (StdString × Option (Value D))} {name : StdString} {a b : Option (Value D)}
    (hnames : ((front ++ (name, b) :: back).map Prod.fst).Nodup) (key : StdString) :
    tabled (front ++ (name, a) :: back) key =
      if key = name then a else tabled (front ++ (name, b) :: back) key := by
  simp only [tabled, List.lookup_append, lookup_cons_ite]
  split_ifs with hkey
  · have hnone : front.lookup key = none := by
      apply lookup_eq_none_of_forall_ne
      rintro m hm rfl
      rw [List.map_append] at hnames
      apply (List.nodup_append.mp hnames).2.2 m.1 (List.mem_map_of_mem hm) name
      · exact List.mem_cons_self
      · exact hkey
    rw [hnone]
    rfl
  · rfl

/-- A text, unless it is empty. -/
def ofText (s : StdString) : Option (Value D) := if s = [] then none else some (.stringValue s)

theorem ofText_inj {s t : StdString} : (ofText s : Option (Value D)) = ofText t ↔ s = t := by
  refine ⟨fun h => ?_, fun h => h ▸ rfl⟩
  rw [ofText, ofText] at h
  split_ifs at h with hs ht
  · exact hs.trans ht.symm
  · exact stringValue.inj (Option.some.inj h)

/-- What an accessor with the empty text as its default makes of a text that may be missing. -/
theorem getD_ofText (s : StdString) :
    (ofText s : Option (Value D)).getD (.stringValue []) = .stringValue s := by
  rw [ofText]
  split_ifs with hs
  · rw [hs, Option.getD_none]
  · rfl

theorem tabled_ofText (fields : List (StdString × StdString)) (key : StdString) :
    tabled (fields.map fun field => (field.1, (ofText field.2 : Option (Value D)))) key =
      (fields.lookup key).bind ofText := by
  induction fields with
  | nil => rfl
  | cons field fields ih =>
      obtain ⟨name, s⟩ := field
      simp only [tabled, List.map_cons, lookup_cons_ite] at ih ⊢
      split_ifs with hkey
      · rfl
      · exact ih

/-! ### Parts of objects -/

/-- The object with these members, or null if there are none. -/
def ofMembers : List (StdString × Value D) → Value D
  | [] => .nullValue
  | m :: members => .objectValue (m :: members)

theorem has_ofMembers {members : List (StdString × Value D)} (h : Ordered members) :
    (ofMembers members).Has (members.lookup ·) := by
  cases members with
  | nil => exact fun _ => rfl
  | cons m members => exact ⟨List.cons_ne_nil _ _, h, fun _ => rfl⟩

end Value

/-- What a part of the members has under a name. -/
theorem Ordered.lookup_filter {members : List (StdString × Value D)} (h : Ordered members)
    (P : StdString × Value D → Bool) (key : StdString) :
    (members.filter P).lookup key = (members.lookup key).filter fun value => P (key, value) := by
  induction members with
  | nil => rfl
  | cons m members ih =>
      obtain ⟨name, value⟩ := m
      obtain ⟨hfirst, hrest⟩ := List.pairwise_cons.mp h
      have hrest' := ih hrest
      rw [List.filter_cons, lookup_cons_ite]
      by_cases hkey : key = name
      · subst hkey
        have hnone : (members.filter P).lookup key = none := by
          rw [hrest', lookup_eq_none_of_lt hfirst]
          rfl
        rw [if_pos rfl, Option.filter_some]
        by_cases hP : P (key, value) = true
        · rw [if_pos hP, if_pos hP, lookup_cons_ite, if_pos rfl]
        · rw [if_neg hP, if_neg hP, hnone]
      · rw [if_neg hkey, ← hrest']
        split
        · rw [lookup_cons_ite, if_neg hkey]
        · rfl

end Json
