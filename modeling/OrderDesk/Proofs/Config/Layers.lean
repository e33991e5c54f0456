import Mathlib.Data.List.Nodup
import OrderDesk.Config.Layer

/-!
# Layers override each other key by key

A layer that sets single settings within parts changes just these and leaves the others of the same
part as they were. So what is found under a key, once all layers have been laid down, was set by the
highest of them that sets this key, whatever the others say about it or about its siblings.

## Main definitions

* `Layer.leaves`: the settings of a layer, by part and name
* `Layer.Flat`: a layer that sets single settings within parts, each once
* `winner?`: what the highest layer says that says anything
* `leaf?`: what is found under a part and a name

## Main results

* `leaf?_lay`: one entry of a layer
* `leaf?_layAll`: one layer
* `leaf?_merged`: what is found once all layers have been laid down
-/

namespace OrderDesk.Config

open Value

variable {root : List (String × Value)} {k : String × String} {v : Value}

/-! ## What a layer sets -/

/-- Whether a setting is no table of others. -/
def Value.isLeaf : Value → Bool
  | .table _ _ => false
  | _ => true

/-- **What an entry of a layer sets**: the members of a part, or a single one of them. -/
def leavesOf : String × Value → List ((String × String) × Value)
  | (key, v) =>
    match keyPath key, v with
    | [.name part], .table _ members => members.map fun m => ((part, m.1), m.2)
    | [.name part, .name name], v => [((part, name), v)]
    | _, _ => []

/-- **The settings of a layer**, by part and name. -/
def Layer.leaves (layer : Layer) : List ((String × String) × Value) :=
  layer.flatMap leavesOf

/-- Whether an entry sets single settings within one part, and nothing else. -/
def isFlat : String × Value → Bool
  | (key, v) =>
    match keyPath key, v with
    | [.name _], .table _ members => members.all fun m => m.2.isLeaf
    | [.name _, .name _], v => v.isLeaf
    | _, _ => false

/-- **A layer that sets single settings within parts**, and no key twice. -/
structure Layer.Flat (layer : Layer) : Prop where
  entries : ∀ entry ∈ layer, isFlat entry = true
  once : (layer.leaves.map Prod.fst).Nodup

instance (layer : Layer) : Decidable layer.Flat :=
  decidable_of_iff ((∀ entry ∈ layer, isFlat entry = true) ∧ (layer.leaves.map Prod.fst).Nodup)
    ⟨fun h => ⟨h.1, h.2⟩, fun h => ⟨h.entries, h.once⟩⟩

/-- **What the highest layer says** that says anything about a key, the highest one first. -/
def winner? (layers : List Layer) (k : String × String) : Option Value :=
  layers.findSome? fun layer => layer.leaves.lookup k

/-- An entry is a part with its members, or a single member of one. -/
theorem flat_cases {key : String} (flat : isFlat (key, v) = true) :
    (∃ part origin members, keyPath key = [.name part] ∧ v = .table origin members ∧
        (∀ m ∈ members, m.2.isLeaf = true) ∧
        leavesOf (key, v) = members.map fun m => ((part, m.1), m.2)) ∨
      ∃ part name, keyPath key = [.name part, .name name] ∧ v.isLeaf = true ∧
        leavesOf (key, v) = [((part, name), v)] := by
  simp only [isFlat] at flat
  simp only [leavesOf]
  split at flat
  · rename_i part origin members path
    exact .inl ⟨part, origin, members, path, rfl, List.all_eq_true.mp flat, rfl⟩
  · rename_i part name path
    exact .inr ⟨part, name, path, flat, rfl⟩
  · cases flat

/-! ## Members -/

theorem lookup_alter (name : String) (f : Option Value → Value) (members : List (String × Value))
    (other : String) :
    (alter name f members).lookup other =
      if other = name then some (f (members.lookup name)) else members.lookup other := by
  induction members with
  | nil =>
    by_cases h : other = name
    · simp [alter, h]
    · simp [alter, h, List.lookup_cons, beq_eq_false_iff_ne.mpr h]
  | cons m members ih =>
    obtain ⟨key, v⟩ := m
    by_cases hkey : key = name
    · subst hkey
      by_cases h : other = key
      · simp [alter, h]
      · simp [alter, h, List.lookup_cons, beq_eq_false_iff_ne.mpr h]
    · have hne : (name == key) = false := beq_eq_false_iff_ne.mpr (Ne.symm hkey)
      simp only [alter, beq_eq_false_iff_ne.mpr hkey, Bool.false_eq_true, if_false,
        List.lookup_cons, ih, hne]
      by_cases h : other = key
      · subst h
        simp [hkey]
      · simp [beq_eq_false_iff_ne.mpr h]

/-- **A single setting replaces** whatever was there. -/
theorem overlay_of_isLeaf (leaf : v.isLeaf = true) (old : Option Value) : v.overlay old = v := by
  cases v with
  | table => cases leaf
  | _ => rw [overlay]

/-- **Members laid over others**: a name has one of the new values if there is any, and otherwise
the value it had. -/
theorem lookup_overlayAll {members : List (String × Value)}
    (leaves : ∀ m ∈ members, m.2.isLeaf = true) (old : List (String × Value)) (name : String) :
    (∃ v, (name, v) ∈ members ∧ (overlay.overlayAll members old).lookup name = some v) ∨
      name ∉ members.map Prod.fst ∧
        (overlay.overlayAll members old).lookup name = old.lookup name := by
  induction members generalizing old with
  | nil => exact .inr ⟨List.not_mem_nil, rfl⟩
  | cons m members ih =>
    obtain ⟨key, v⟩ := m
    obtain ⟨leaf, leaves⟩ := List.forall_mem_cons.mp leaves
    rw [overlay.overlayAll]
    rcases ih leaves (alter key v.overlay old) with ⟨w, mem, found⟩ | ⟨none, same⟩
    · exact .inl ⟨w, List.mem_cons_of_mem _ mem, found⟩
    · -- no later member has this name, so it is this one or none
      rw [lookup_alter, overlay_of_isLeaf leaf] at same
      by_cases h : name = key
      · rw [if_pos h] at same
        exact .inl ⟨v, h ▸ List.mem_cons_self .., same⟩
      · rw [if_neg h] at same
        refine .inr ⟨?_, same⟩
        rw [List.map_cons, List.mem_cons]
        exact not_or_intro h none

/-! ## One entry -/

/-- **What is found** under a part and a name. -/
def leaf? (root : List (String × Value)) (k : String × String) : Option Value :=
  (membersOf (root.lookup k.1)).lookup k.2

/-- A key that starts with a name changes what is under that name. -/
theorem lay_of_path {key part : String} {steps : List Step} (path : keyPath key = .name part :: steps)
    (root : List (String × Value)) (v : Value) : lay root key v = alter part (v.put steps) root := by
  rw [lay, path, put]
  rfl

theorem leaf?_alter (part : String) (f : Option Value → Value) :
    leaf? (alter part f root) k =
      if k.1 = part then (membersOf (some (f (root.lookup part)))).lookup k.2
      else leaf? root k := by
  unfold leaf?
  rw [lookup_alter]
  split <;> rfl

/-- **One entry of a layer**: a key that it sets has the value of the entry, and every other one
what it had. -/
theorem leaf?_lay {key : String} (flat : isFlat (key, v) = true) :
    (∃ w, (k, w) ∈ leavesOf (key, v) ∧ leaf? (lay root key v) k = some w) ∨
      k ∉ (leavesOf (key, v)).map Prod.fst ∧ leaf? (lay root key v) k = leaf? root k := by
  obtain ⟨inPart, name⟩ := k
  rcases flat_cases flat with
    ⟨part, origin, members, path, rfl, leaves, set⟩ | ⟨part, other, path, leaf, set⟩
  · -- the members of a part
    rw [lay_of_path path, leaf?_alter, set]
    by_cases h : inPart = part
    · subst h
      rw [if_pos rfl, put, overlay]
      rcases lookup_overlayAll leaves (membersOf (root.lookup inPart)) name with
        ⟨w, mem, found⟩ | ⟨none, same⟩
      · exact .inl ⟨w, List.mem_map.mpr ⟨_, mem, rfl⟩, found⟩
      · refine .inr ⟨?_, same⟩
        simpa using none
    · rw [if_neg h]
      refine .inr ⟨?_, rfl⟩
      simp [Ne.symm h]
  · -- a single one
    rw [lay_of_path path, leaf?_alter, set]
    by_cases h : inPart = part
    · subst h
      rw [if_pos rfl, put, membersOf, lookup_alter, put, overlay_of_isLeaf leaf]
      by_cases h' : name = other
      · subst h'
        rw [if_pos rfl]
        exact .inl ⟨v, List.mem_singleton_self _, rfl⟩
      · rw [if_neg h']
        refine .inr ⟨?_, rfl⟩
        simp [h']
    · rw [if_neg h]
      refine .inr ⟨?_, rfl⟩
      simp [h]

/-! ## Layers -/

/-- What an association list says about a key that it has once. -/
theorem lookup_of_mem {α β : Type} [BEq α] [LawfulBEq α] {l : List (α × β)} {a : α} {b : β}
    (once : (l.map Prod.fst).Nodup) (mem : (a, b) ∈ l) : l.lookup a = some b := by
  induction l with
  | nil => cases mem
  | cons m l ih =>
    obtain ⟨a', b'⟩ := m
    rw [List.map_cons, List.nodup_cons] at once
    rcases List.mem_cons.mp mem with head | tail
    · cases head
      rw [List.lookup_cons_self]
    · have other : (a == a') = false := by
        rw [beq_eq_false_iff_ne]
        rintro rfl
        exact once.1 (List.mem_map.mpr ⟨_, tail, rfl⟩)
      rw [List.lookup_cons, other]
      exact ih once.2 tail

theorem lookup_eq_none {α β : Type} [BEq α] [LawfulBEq α] {l : List (α × β)} {a : α}
    (h : a ∉ l.map Prod.fst) : l.lookup a = none := by
  rw [List.lookup_eq_none_iff]
  intro m hm
  rw [bne_iff_ne]
  rintro rfl
  exact h (List.mem_map_of_mem hm)

/-- The entries of a layer, one after the other: the last one that sets a key tells its value. -/
theorem leaf?_foldl {layer : Layer} (flat : ∀ entry ∈ layer, isFlat entry = true)
    (root : List (String × Value)) :
    (∃ w, (k, w) ∈ layer.leaves ∧ leaf? (layAll root layer) k = some w) ∨
      k ∉ layer.leaves.map Prod.fst ∧ leaf? (layAll root layer) k = leaf? root k := by
  induction layer generalizing root with
  | nil => exact .inr ⟨List.not_mem_nil, rfl⟩
  | cons entry layer ih =>
    obtain ⟨key, v⟩ := entry
    obtain ⟨first, flat⟩ := List.forall_mem_cons.mp flat
    have leaves : Layer.leaves ((key, v) :: layer) = leavesOf (key, v) ++ Layer.leaves layer := rfl
    rw [leaves]
    show (∃ w, _ ∧ leaf? (layAll (lay root key v) layer) k = some w) ∨
      _ ∧ leaf? (layAll (lay root key v) layer) k = _
    rcases ih flat (lay root key v) with ⟨w, mem, found⟩ | ⟨none, same⟩
    · exact .inl ⟨w, List.mem_append_right _ mem, found⟩
    · -- no later entry sets the key, so it is this one or none
      rw [same]
      rcases leaf?_lay first with ⟨w, mem, found⟩ | ⟨none', same'⟩
      · exact .inl ⟨w, List.mem_append_left _ mem, found⟩
      · refine .inr ⟨?_, same'⟩
        rw [List.map_append, List.mem_append]
        exact not_or_intro none' none

/-- **One layer**: what it says about a key, and else what was found before. -/
theorem leaf?_layAll {layer : Layer} (flat : layer.Flat) (root : List (String × Value))
    (k : String × String) :
    leaf? (layAll root layer) k = (layer.leaves.lookup k).or (leaf? root k) := by
  rcases leaf?_foldl flat.entries root (k := k) with ⟨w, mem, found⟩ | ⟨none, same⟩
  · rw [found, lookup_of_mem flat.once mem, Option.some_or]
  · rw [same, lookup_eq_none none, Option.none_or]

/-- **Once all layers have been laid down**, what is found under a key is what the highest of them
says that says anything about it. -/
theorem leaf?_merged {layers : List Layer} (flat : ∀ layer ∈ layers, layer.Flat)
    (k : String × String) : leaf? (merged layers.reverse) k = winner? layers k := by
  induction layers with
  | nil => rfl
  | cons layer lower ih =>
    obtain ⟨first, flat⟩ := List.forall_mem_cons.mp flat
    have laid : merged (layer :: lower).reverse = layAll (merged lower.reverse) layer := by
      rw [merged, List.reverse_cons, List.foldl_append]
      rfl
    rw [laid, leaf?_layAll first, ih flat, winner?, winner?, List.findSome?_cons]
    rcases layer.leaves.lookup k with _ | v
    · exact Option.none_or
    · exact Option.some_or

/-! ## Parts -/

/-- **Only parts** stand at the top. -/
def OnlyParts (root : List (String × Value)) : Prop :=
  ∀ part v, root.lookup part = some v → ∃ origin members, v = .table origin members

theorem OnlyParts.lay {key : String} (parts : OnlyParts root) (flat : isFlat (key, v) = true) :
    OnlyParts (lay root key v) := by
  intro part w found
  rcases flat_cases flat with ⟨at_, origin, members, path, rfl, -⟩ | ⟨at_, name, path, -⟩
  · rw [lay_of_path path, lookup_alter] at found
    split at found
    · rw [put, overlay] at found
      exact ⟨_, _, (Option.some.inj found).symm⟩
    · exact parts part w found
  · rw [lay_of_path path, lookup_alter] at found
    split at found
    · rw [put] at found
      exact ⟨_, _, (Option.some.inj found).symm⟩
    · exact parts part w found

theorem OnlyParts.layAll {layer : Layer} (parts : OnlyParts root)
    (flat : ∀ entry ∈ layer, isFlat entry = true) : OnlyParts (layAll root layer) := by
  induction layer generalizing root with
  | nil => exact parts
  | cons entry layer ih =>
    obtain ⟨first, flat⟩ := List.forall_mem_cons.mp flat
    exact ih (parts.lay first) flat

theorem onlyParts_merged {layers : List Layer} (flat : ∀ layer ∈ layers, layer.Flat) :
    OnlyParts (merged layers) := by
  -- from any settings in parts, since they grow from layer to layer
  have go {layers : List Layer} (flat : ∀ layer ∈ layers, layer.Flat) {root}
      (parts : OnlyParts root) : OnlyParts (layers.foldl Config.layAll root) := by
    induction layers generalizing root with
    | nil => exact parts
    | cons layer layers ih =>
      obtain ⟨first, flat⟩ := List.forall_mem_cons.mp flat
      exact ih flat (parts.layAll first.entries)
  exact go flat fun part v found => by cases found

end OrderDesk.Config
