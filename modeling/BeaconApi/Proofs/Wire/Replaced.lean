import BeaconApi.Proofs.Wire.Holding

namespace BeaconApi.Wire

open Json (Document Fault)

/-- The shape of the field of a name. -/
def Fields.shape? : Fields → String → Option Shape
  | .nil, _ => Option.none
  | .required name shape rest, key | .optional name shape rest, key =>
    if key = name then some shape else rest.shape? key

/-- The shape of the field at a place. -/
def Fields.shapeAt? : Fields → Nat → Option Shape
  | .nil, _ => Option.none
  | .required _ shape _, 0 | .optional _ shape _, 0 => some shape
  | .required _ _ rest, index + 1 | .optional _ _ rest, index + 1 => rest.shapeAt? index

/-- The names of the fields that have to be there. -/
def Fields.requiredNames : Fields → List String
  | .nil => []
  | .required name _ rest => name :: rest.requiredNames
  | .optional _ _ rest => rest.requiredNames

/-- What holds of all items of a list holds of one in the middle and of the others. -/
theorem forall_mem_mid_iff {α : Type} {p : α → Prop} {x : α} {before after : List α} :
    (∀ y ∈ before ++ x :: after, p y) ↔ p x ∧ ∀ y ∈ before ++ after, p y := by
  rw [List.forall_mem_append, List.forall_mem_cons, List.forall_mem_append]
  exact and_left_comm

section Members

variable {name : String} {key : Except Fault String} {d : Document} {before after members members' : Members}

theorem isNamed_iff : isNamed name (key, d) = true ↔ key = .ok name := by
  cases key <;> simp [isNamed]

theorem valuesOf_append (first second : Members) :
    valuesOf name (first ++ second) = valuesOf name first ++ valuesOf name second := by
  simp [valuesOf]

theorem without_append (first second : Members) :
    without name (first ++ second) = without name first ++ without name second := by
  simp [without]

theorem mem_valuesOf (h : (.ok name, d) ∈ members) : d ∈ valuesOf name members :=
  List.mem_map.mpr ⟨_, List.mem_filter.mpr ⟨h, isNamed_iff.mpr rfl⟩, rfl⟩

theorem valuesOf_without_self : valuesOf name (without name members) = [] := by
  simp [valuesOf, without, List.filter_filter]

/-- A member of a name stands among the values of the name, and apart from the members of others. -/
theorem valuesOf_mid_self :
    valuesOf name (before ++ (.ok name, d) :: after) = valuesOf name before ++ d :: valuesOf name after := by
  rw [valuesOf_append, valuesOf_cons_self]

theorem without_mid_self : without name (before ++ (.ok name, d) :: after) = without name (before ++ after) := by
  rw [without_append, without_cons_self, without_append]

/-- Any other member does not. -/
theorem valuesOf_mid_of_ne (h : key ≠ .ok name) :
    valuesOf name (before ++ (key, d) :: after) = valuesOf name (before ++ after) := by
  have hnot : isNamed name (key, d) = false := Bool.eq_false_iff.mpr fun hnamed => h (isNamed_iff.mp hnamed)
  simp [valuesOf, hnot]

theorem without_mid_of_ne (h : key ≠ .ok name) :
    without name (before ++ (key, d) :: after) = without name before ++ (key, d) :: without name after := by
  have hnot : isNamed name (key, d) = false := Bool.eq_false_iff.mpr fun hnamed => h (isNamed_iff.mp hnamed)
  simp [without, hnot]

/-- When a member is replaced by one of the same name, the one value of a name is replaced with it or stays. -/
theorem valuesOf_replace {value : Document} (d' : Document)
    (h : valuesOf name (before ++ (key, d) :: after) = [value]) :
    (key = .ok name ∧ d = value ∧ valuesOf name (before ++ (key, d') :: after) = [d']) ∨
      valuesOf name (before ++ (key, d') :: after) = [value] := by
  by_cases hkey : key = .ok name
  · subst hkey
    rw [valuesOf_mid_self, List.append_eq_singleton_iff] at h
    rcases h with ⟨hbefore, hmid⟩ | ⟨-, hmid⟩
    · obtain ⟨hvalue, hafter⟩ := List.cons.inj hmid
      refine .inl ⟨rfl, hvalue, ?_⟩
      rw [valuesOf_mid_self, hbefore, hafter, List.nil_append]
    · cases hmid
  · rw [valuesOf_mid_of_ne hkey] at h
    exact .inr ((valuesOf_mid_of_ne hkey).trans h)

/-- A name without a value is not that of the member. -/
theorem valuesOf_replace_nil (d' : Document) (h : valuesOf name (before ++ (key, d) :: after) = []) :
    valuesOf name (before ++ (key, d') :: after) = [] := by
  by_cases hkey : key = .ok name
  · subst hkey
    rw [valuesOf_mid_self, List.append_eq_nil_iff] at h
    cases h.2
  · rw [valuesOf_mid_of_ne hkey] at h
    exact (valuesOf_mid_of_ne hkey).trans h

/-- A name that has been given at most once has its value in any order of the members. -/
theorem valuesOf_of_perm (h : members.Perm members') (hlength : (valuesOf name members).length ≤ 1) :
    valuesOf name members' = valuesOf name members := by
  have hvalues : (valuesOf name members).Perm (valuesOf name members') := (h.filter _).map _
  match hlist : valuesOf name members, hlength with
  | [], _ =>
    rw [hlist] at hvalues
    exact hvalues.symm.eq_nil
  | [value], _ =>
    rw [hlist] at hvalues
    exact List.perm_singleton.mp hvalues.symm

theorem without_perm (h : members.Perm members') : (without name members).Perm (without name members') :=
  h.filter _

end Members

/-- What may be null may be replaced by what holds the same and is not null either. -/
theorem OrNull.imp {α : Type} {holds : Document → α → Prop} {d d' : Document} (hnull : d = .null ↔ d' = .null)
    (h : ∀ {x}, holds d x → holds d' x) {x : Option α} (hd : OrNull holds d x) : OrNull holds d' x := by
  cases x with
  | none => exact hnull.mp hd
  | some x => exact ⟨fun hd' => hd.1 (hnull.mpr hd'), h hd.2⟩

theorem OrNull.exists_holds {α : Type} {holds : Document → α → Prop} {d : Document} {x : Option α}
    (h : OrNull holds d x) (hd : d ≠ .null) : ∃ y, holds d y := by
  cases x with
  | none => exact absurd h hd
  | some y => exact ⟨y, h.2⟩

namespace Fields

/-- The members may come in any order. -/
theorem named_perm : ∀ {fs : Fields} {members members' : Members}, members.Perm members' →
    ∀ {x : fs.Carrier}, fs.Named members x → fs.Named members' x
  | .nil, _, _, hperm, (), h => fun m hm => h m (hperm.mem_iff.mpr hm)
  | .required _ _ _, _, _, hperm, (_, _), h => by
    obtain ⟨⟨d, hvalues, hholds⟩, hrest⟩ := h
    have hsame := valuesOf_of_perm hperm (by rw [hvalues]; exact Nat.le_refl 1)
    exact ⟨⟨d, hsame.trans hvalues, hholds⟩, named_perm (without_perm hperm) hrest⟩
  | .optional _ _ _, _, _, hperm, (_, _), h => by
    obtain ⟨hvalue, hrest⟩ := h
    refine ⟨?_, named_perm (without_perm hperm) hrest⟩
    rcases hvalue with ⟨hvalues, hnone⟩ | ⟨d, hvalues, hholds⟩
    · have hsame := valuesOf_of_perm hperm (by rw [hvalues]; exact Nat.zero_le 1)
      exact .inl ⟨hsame.trans hvalues, hnone⟩
    · have hsame := valuesOf_of_perm hperm (by rw [hvalues]; exact Nat.le_refl 1)
      exact .inr ⟨d, hsame.trans hvalues, hholds⟩

/-- A member of an unknown name may be there or not, as long as it can be passed over. -/
theorem named_insert_iff {key : String} {d : Document} : ∀ {fs : Fields}, key ∉ fs.names →
    ∀ {before after : Members} {x : fs.Carrier},
    fs.Named (before ++ (.ok key, d) :: after) x ↔ d.skip = .ok () ∧ fs.Named (before ++ after) x
  | .nil, _, before, after, () =>
    forall_mem_mid_iff.trans (and_congr_left' ⟨And.right, fun hskip => ⟨⟨key, rfl⟩, hskip⟩⟩)
  | .required name _ rest, hkey, before, after, (_, _) => by
    obtain ⟨hne, hrest⟩ := List.ne_and_not_mem_of_not_mem_cons hkey
    have hother : (Except.ok key : Except Fault String) ≠ .ok name := fun heq => hne (Except.ok.inj heq)
    rw [Named, Named, valuesOf_mid_of_ne hother, without_mid_of_ne hother, without_append,
      named_insert_iff hrest, and_left_comm]
  | .optional name _ rest, hkey, before, after, (_, _) => by
    obtain ⟨hne, hrest⟩ := List.ne_and_not_mem_of_not_mem_cons hkey
    have hother : (Except.ok key : Except Fault String) ≠ .ok name := fun heq => hne (Except.ok.inj heq)
    rw [Named, Named, valuesOf_mid_of_ne hother, without_mid_of_ne hother, without_append,
      named_insert_iff hrest, and_left_comm]

section Replace

variable {key : Except Fault String} {d d' : Document} {name : String} {rest : Fields} {before after : Members}

/-- Among the members of other names, a member is replaced as it is among all members. -/
theorem named_without_replace {xs : rest.Carrier}
    (hrec : key ≠ .ok name → ∀ {before after : Members}, rest.Named (before ++ (key, d) :: after) xs →
      rest.Named (before ++ (key, d') :: after) xs)
    (h : rest.Named (without name (before ++ (key, d) :: after)) xs) :
    rest.Named (without name (before ++ (key, d') :: after)) xs := by
  by_cases hkey : key = .ok name
  · subst hkey
    rw [without_mid_self] at h ⊢
    exact h
  · rw [without_mid_of_ne hkey] at h ⊢
    exact hrec hkey h

theorem shape?_cons_of_ne {other : String} {shape shape' : Shape} (hkey : key ≠ .ok name)
    (hother : key = .ok other) (h : rest.shape? other = some shape') :
    (if other = name then some shape else rest.shape? other) = some shape' :=
  (if_neg fun heq => hkey (hother.trans (congrArg Except.ok heq))).trans h

/-- A member may be replaced by one of the same name that can be passed over and holds the same for the field of
the name, if there is one. -/
theorem named_replace (hnull : d = .null ↔ d' = .null) (hskip : d.skip = .ok () → d'.skip = .ok ()) :
    ∀ {fs : Fields}, (∀ {name shape}, key = .ok name → fs.shape? name = some shape →
      ∀ {x : shape.Carrier}, shape.Holds d x → shape.Holds d' x) →
    ∀ {before after : Members} {x : fs.Carrier}, fs.Named (before ++ (key, d) :: after) x →
      fs.Named (before ++ (key, d') :: after) x
  | .nil, _, before, after, (), h => by
    obtain ⟨⟨hkey, hd⟩, hothers⟩ := forall_mem_mid_iff.mp h
    exact forall_mem_mid_iff.mpr ⟨⟨hkey, hskip hd⟩, hothers⟩
  | .required _ _ _, hholds, before, after, (_, _), ⟨⟨value, hvalues, hvalue⟩, hrest⟩ => by
    refine ⟨?_, named_without_replace (fun hkey => named_replace hnull hskip fun hother hshape =>
      hholds hother (shape?_cons_of_ne hkey hother hshape)) hrest⟩
    rcases valuesOf_replace d' hvalues with ⟨rfl, rfl, hvalues'⟩ | hvalues'
    · exact ⟨d', hvalues', hholds rfl (if_pos rfl) hvalue⟩
    · exact ⟨value, hvalues', hvalue⟩
  | .optional _ _ _, hholds, before, after, (_, _), ⟨hvalue, hrest⟩ => by
    refine ⟨?_, named_without_replace (fun hkey => named_replace hnull hskip fun hother hshape =>
      hholds hother (shape?_cons_of_ne hkey hother hshape)) hrest⟩
    rcases hvalue with ⟨hvalues, hnone⟩ | ⟨value, hvalues, hvalue⟩
    · exact .inl ⟨valuesOf_replace_nil d' hvalues, hnone⟩
    · rcases valuesOf_replace d' hvalues with ⟨rfl, rfl, hvalues'⟩ | hvalues'
      · exact .inr ⟨d', hvalues', hvalue.imp hnull (hholds rfl (if_pos rfl))⟩
      · exact .inr ⟨value, hvalues', hvalue⟩

/-- An item may be replaced by one that holds the same for the field at its place. -/
theorem listed_replace (hnull : d = .null ↔ d' = .null) : ∀ {fs : Fields} {before after : List Document}
    {x : fs.Carrier}, fs.Listed (before ++ d :: after) x → (∀ {shape}, fs.shapeAt? before.length = some shape →
      ∀ {x : shape.Carrier}, shape.Holds d x → shape.Holds d' x) → fs.Listed (before ++ d' :: after) x
  | .nil, before, after, (), h, _ => by
    cases List.append_ne_nil_of_right_ne_nil before (List.cons_ne_nil d after) h
  | .required _ _ _, [], after, (_, _), ⟨_, _, hitems, hvalue, hrest⟩, hholds => by
    obtain ⟨rfl, rfl⟩ := List.cons.inj hitems
    exact ⟨d', after, rfl, hholds rfl hvalue, hrest⟩
  | .required _ _ _, item :: before, after, (_, _), ⟨_, _, hitems, hvalue, hrest⟩, hholds => by
    obtain ⟨rfl, rfl⟩ := List.cons.inj hitems
    exact ⟨item, _, rfl, hvalue, listed_replace hnull hrest hholds⟩
  | .optional _ _ _, [], after, (_, _), h, hholds => by
    rcases h with ⟨hitems, -⟩ | ⟨_, _, hitems, hvalue, hrest⟩
    · cases hitems
    · obtain ⟨rfl, rfl⟩ := List.cons.inj hitems
      exact .inr ⟨d', after, rfl, hvalue.imp hnull (hholds rfl), hrest⟩
  | .optional _ _ _, item :: before, after, (_, _), h, hholds => by
    rcases h with ⟨hitems, -⟩ | ⟨_, _, hitems, hvalue, hrest⟩
    · cases hitems
    · obtain ⟨rfl, rfl⟩ := List.cons.inj hitems
      exact .inr ⟨item, _, rfl, hvalue, listed_replace hnull hrest hholds⟩

end Replace

section Parts

variable {key : String} {shape : Shape} {d : Document}

/-- The name of a field is given once at most. -/
theorem Named.length_valuesOf_le : ∀ {fs : Fields} {members : Members} {x : fs.Carrier},
    fs.Named members x → key ∈ fs.names → (valuesOf key members).length ≤ 1
  | .required name _ rest, members, (_, _), ⟨⟨value, hvalues, _⟩, hrest⟩, hkey => by
    by_cases hname : key = name
    · rw [hname, hvalues]
      exact Nat.le_refl 1
    · rw [← valuesOf_without hname]
      exact hrest.length_valuesOf_le (List.mem_of_ne_of_mem hname hkey)
  | .optional name _ rest, members, (_, _), ⟨hvalue, hrest⟩, hkey => by
    by_cases hname : key = name
    · rcases hvalue with ⟨hvalues, _⟩ | ⟨_, hvalues, _⟩ <;> simp [hname, hvalues]
    · rw [← valuesOf_without hname]
      exact hrest.length_valuesOf_le (List.mem_of_ne_of_mem hname hkey)

/-- The name of a required field is given. -/
theorem Named.valuesOf_ne_nil : ∀ {fs : Fields} {members : Members} {x : fs.Carrier},
    fs.Named members x → key ∈ fs.requiredNames → valuesOf key members ≠ []
  | .required name _ rest, members, (_, _), ⟨⟨value, hvalues, _⟩, hrest⟩, hkey => by
    by_cases hname : key = name
    · rw [hname, hvalues]
      exact List.cons_ne_nil _ _
    · rw [← valuesOf_without hname]
      exact hrest.valuesOf_ne_nil (List.mem_of_ne_of_mem hname hkey)
  | .optional name _ rest, members, (_, _), ⟨_, hrest⟩, hkey => fun hnone => by
    have hvalues : (valuesOf key (without name members)).Sublist (valuesOf key members) :=
      (List.filter_sublist.filter _).map _
    rw [hnone, List.sublist_nil] at hvalues
    exact hrest.valuesOf_ne_nil hkey hvalues

/-- What is given for a field holds a value of its shape, unless it is null. -/
theorem Named.exists_holds : ∀ {fs : Fields} {members : Members} {x : fs.Carrier},
    fs.Named members x → fs.shape? key = some shape → d ∈ valuesOf key members → d ≠ .null →
    ∃ y, shape.Holds d y
  | .required name _ rest, members, (y, _), ⟨⟨value, hvalues, hvalue⟩, hrest⟩, hshape, hmem, hd => by
    by_cases hname : key = name
    · obtain rfl := Option.some.inj ((if_pos hname).symm.trans hshape)
      rw [hname, hvalues, List.mem_singleton] at hmem
      exact ⟨y, hmem ▸ hvalue⟩
    · rw [← valuesOf_without hname] at hmem
      exact hrest.exists_holds ((if_neg hname).symm.trans hshape) hmem hd
  | .optional name _ rest, members, (_, _), ⟨hvalue, hrest⟩, hshape, hmem, hd => by
    by_cases hname : key = name
    · obtain rfl := Option.some.inj ((if_pos hname).symm.trans hshape)
      rcases hvalue with ⟨hvalues, _⟩ | ⟨value, hvalues, hvalue⟩
      · simp [hname, hvalues] at hmem
      · rw [hname, hvalues, List.mem_singleton] at hmem
        exact (hmem ▸ hvalue).exists_holds hd
    · rw [← valuesOf_without hname] at hmem
      exact hrest.exists_holds ((if_neg hname).symm.trans hshape) hmem hd

theorem Listed.exists_holds : ∀ {fs : Fields} {before after : List Document} {x : fs.Carrier},
    fs.Listed (before ++ d :: after) x → fs.shapeAt? before.length = some shape → d ≠ .null →
    ∃ y, shape.Holds d y
  | .required _ _ _, [], after, (y, _), ⟨_, _, hitems, hvalue, _⟩, hshape, _ => by
    obtain ⟨rfl, -⟩ := List.cons.inj hitems
    obtain rfl := Option.some.inj hshape
    exact ⟨y, hvalue⟩
  | .required _ _ _, item :: before, after, (_, _), ⟨_, _, hitems, _, hrest⟩, hshape, hd => by
    obtain ⟨-, rfl⟩ := List.cons.inj hitems
    exact Listed.exists_holds hrest hshape hd
  | .optional _ _ _, [], after, (_, _), h, hshape, hd => by
    rcases h with ⟨hitems, -⟩ | ⟨_, _, hitems, hvalue, -⟩
    · cases hitems
    · obtain ⟨rfl, -⟩ := List.cons.inj hitems
      obtain rfl := Option.some.inj hshape
      exact hvalue.exists_holds hd
  | .optional _ _ _, item :: before, after, (_, _), h, hshape, hd => by
    rcases h with ⟨hitems, -⟩ | ⟨_, _, hitems, -, hrest⟩
    · cases hitems
    · obtain ⟨-, rfl⟩ := List.cons.inj hitems
      exact Listed.exists_holds hrest hshape hd

end Parts

end Fields

end BeaconApi.Wire
