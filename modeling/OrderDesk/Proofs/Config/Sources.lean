import Mathlib.Data.List.TakeWhile
import OrderDesk.Proofs.Config.Layers

/-!
# What the layers come from

A configuration is laid down from files and from the variables of the environment. This module says
what each of them sets, by the files that stand in the directory and the names of the variables, and
shows that the layers of the loader are just that: no file and no variable is passed over, and
nothing else is in them.

## Main definitions

* `Files.Stands`, `Files.Says`: the file of a layer, and the settings in it
* `Sets`: the settings of a variable of the environment
* `Singles`: an environment of single settings within parts, none of them twice

## Main results

* `requiredLayer_eq_ok_iff`, `optionalLayer_eq_ok_iff`: the layer of a file is what the file says
* `mem_leaves_ofEnvironment`: the layer of the environment is what its variables set
* `flat_ofEnvironment_iff`: it is flat exactly if the environment is one of single settings
-/

namespace OrderDesk.Config

/-! ## Files -/

namespace Files

variable {formats : List Format} {files : Files} {layer : String} {format : Format}
  {path content : String} {settings : Layer}

/-- **A file stands for a layer**: it has just the layer's name, with an ending of a format; or no
file has, and it is the first one that has the layer's name with an ending of a format behind it. -/
inductive Stands (formats : List Format) (files : Files) (layer : String) :
    Format → String → String → Prop
  | named {last ending content : String} {format : Format}
    (there : files.at? (writtenPath layer) = some content)
    (called : (pathOf layer).getLast? = some last) (ends : ending? last = some ending)
    (known : (endings formats).lookup ending = some format) :
    Stands formats files layer format (shown (pathOf layer)) content
  | ended {before after : List (String × Format)} {ending content : String} {format : Format}
    {path : List String} (unnamed : files.at? (writtenPath layer) = none)
    (order : endings formats = before ++ (ending, format) :: after)
    (first : ∀ e ∈ before, ∀ path, pathWith? layer e.1 = some path → files.at? path = none)
    (placed : pathWith? layer ending = some path) (there : files.at? path = some content) :
    Stands formats files layer format (shown path) content

/-- **What a layer's file says**, read in its format. -/
inductive Says (formats : List Format) (files : Files) (layer : String) : Layer → Prop
  | mk {format : Format} {path content : String} {settings : Layer}
    (stands : Stands formats files layer format path content)
    (read : format.read (.file path) content = some settings) : Says formats files layer settings

/-- **No file stands for a layer.** -/
def Lacks (formats : List Format) (files : Files) (layer : String) : Prop :=
  ∀ format path content, ¬ Stands formats files layer format path content

theorem withEnding?_eq_none_iff {ending : String} : files.withEnding? layer ending = none ↔
    ∀ path, pathWith? layer ending = some path → files.at? path = none := by
  rw [withEnding?]
  cases h : pathWith? layer ending with
  | none => simp
  | some path => simp

theorem withEnding?_eq_some_iff {ending : String} :
    files.withEnding? layer ending = some (path, content) ↔
      ∃ names, pathWith? layer ending = some names ∧ files.at? names = some content ∧
        shown names = path := by
  rw [withEnding?]
  cases h : pathWith? layer ending with
  | none => simp
  | some names => simp

/-- **The file that is found** is the one that stands for the layer. -/
theorem find?_eq_some_iff : files.find? formats layer = some (format, path, content) ↔
    Stands formats files layer format path content := by
  rw [find?]
  constructor
  · intro h
    cases hnamed : files.at? (writtenPath layer) with
    | some named =>
      simp only [hnamed] at h
      split at h
      · cases h
      · rename_i ending hending
        obtain ⟨last, hlast, hends⟩ := Option.bind_eq_some_iff.mp hending
        obtain ⟨known, hknown, heq⟩ := Option.map_eq_some_iff.mp h
        cases heq
        exact .named hnamed hlast hends hknown
    | none =>
      simp only [hnamed] at h
      obtain ⟨before, ⟨ending, known⟩, after, order, hfound, hbefore⟩ :=
        List.findSome?_eq_some_iff.mp h
      obtain ⟨⟨shown, there⟩, hending, heq⟩ := Option.map_eq_some_iff.mp hfound
      cases heq
      obtain ⟨names, placed, there, rfl⟩ := withEnding?_eq_some_iff.mp hending
      refine .ended hnamed order (fun e mem => ?_) placed there
      exact withEnding?_eq_none_iff.mp (Option.map_eq_none_iff.mp (hbefore e mem))
  · intro stands
    cases stands with
    | named there called ends known => simp only [there, called, Option.bind_some, ends, known,
        Option.map_some]
    | @ended before after ending _ _ names unnamed order first placed there =>
      simp only [unnamed]
      refine List.findSome?_eq_some_iff.mpr
        ⟨before, (ending, format), after, order, ?_, fun e mem => ?_⟩
      · rw [withEnding?_eq_some_iff.mpr ⟨names, placed, there, rfl⟩]
        rfl
      · rw [withEnding?_eq_none_iff.mpr (first e mem)]
        rfl

theorem find?_eq_none_iff : files.find? formats layer = none ↔ Lacks formats files layer := by
  rw [Option.eq_none_iff_forall_ne_some]
  constructor
  · exact fun h format path content stands => h _ (find?_eq_some_iff.mpr stands)
  · exact fun lacks file h => lacks _ _ _ (find?_eq_some_iff.mp h)

end Files

section FileLayers

variable {formats : List Format} {files : Files} {name : String} {layer : Layer}

theorem ofFile_eq_ok_iff {format : Format} {path content : String} :
    Layer.ofFile format path content = .ok layer ↔
      format.read (.file path) content = some layer := by
  rw [Layer.ofFile]
  cases format.read (.file path) content with
  | none => simp
  | some settings => simp

/-- **The layer of a file that must be there** is what the file says. -/
theorem requiredLayer_eq_ok_iff :
    requiredLayer formats files name = .ok layer ↔ files.Says formats name layer := by
  rw [requiredLayer]
  cases h : files.find? formats name with
  | none =>
    refine iff_of_false (by simp) fun told => ?_
    obtain ⟨stands, -⟩ := told
    exact Files.find?_eq_none_iff.mp h _ _ _ stands
  | some found =>
    obtain ⟨format, path, content⟩ := found
    rw [ofFile_eq_ok_iff]
    constructor
    · exact fun read => .mk (Files.find?_eq_some_iff.mp h) read
    · rintro ⟨stands, read⟩
      cases h.symm.trans (Files.find?_eq_some_iff.mpr stands)
      exact read

/-- **The layer of a file that may be missing** is what the file says, or empty without one. -/
theorem optionalLayer_eq_ok_iff : optionalLayer formats files name = .ok layer ↔
    files.Says formats name layer ∨ files.Lacks formats name ∧ layer = [] := by
  cases h : files.find? formats name with
  | none =>
    have lacks := Files.find?_eq_none_iff.mp h
    simp only [optionalLayer, h, Except.ok.injEq]
    constructor
    · rintro rfl
      exact .inr ⟨lacks, rfl⟩
    · rintro (⟨stands, -⟩ | ⟨-, rfl⟩)
      · exact absurd stands (lacks _ _ _)
      · rfl
  | some found =>
    have hsame : optionalLayer formats files name = requiredLayer formats files name := by
      simp only [optionalLayer, requiredLayer, h]
    rw [hsame, requiredLayer_eq_ok_iff]
    refine ⟨.inl, fun told => told.resolve_right fun lacks => ?_⟩
    rw [Files.find?_eq_none_iff.mpr lacks.1] at h
    cases h

end FileLayers

/-! ## Keys -/

/-- **A word of a key**: some characters of names. -/
def IsWord (word : String) : Prop :=
  word ≠ "" ∧ ∀ c ∈ word.toList, isKeyChar c = true

theorem point_not_mem {word : String} (h : IsWord word) : '.' ∉ word.toList := fun mem =>
  Bool.false_ne_true (h.2 '.' mem)

theorem takeName?_eq_some {text rest : List Char} {step : Step}
    (h : takeName? text = some (step, rest)) :
    ∃ word, step = .name word ∧ IsWord word ∧ text = word.toList ++ rest := by
  rw [takeName?] at h
  split at h
  · cases h
  · rename_i some
    cases h
    refine ⟨_, rfl, ⟨fun empty => some ?_, ?_⟩, ?_⟩
    · rw [List.isEmpty_iff, ← String.toList_ofList (l := text.takeWhile isKeyChar), empty]
      rfl
    · rw [String.toList_ofList]
      exact fun c mem => List.mem_takeWhile_imp mem
    · rw [String.toList_ofList, List.takeWhile_append_dropWhile]

theorem takeName?_word {word : String} (h : IsWord word) {rest : List Char}
    (stops : ∀ c ∈ rest.head?, isKeyChar c = false) :
    takeName? (word.toList ++ rest) = some (.name word, rest) := by
  have htake : (word.toList ++ rest).takeWhile isKeyChar = word.toList := by
    rw [List.takeWhile_append_of_pos h.2]
    cases rest with
    | nil => simp
    | cons c rest => simp [stops c rfl]
  have hdrop : (word.toList ++ rest).dropWhile isKeyChar = rest := by
    rw [List.dropWhile_append_of_pos h.2]
    cases rest with
    | nil => rfl
    | cons c rest => simp [stops c rfl]
  have hsome : word.toList.isEmpty = false := by
    rw [List.isEmpty_eq_false_iff]
    exact fun empty => h.1 (String.toList_eq_nil_iff.mp empty)
  simp [takeName?, htake, hdrop, hsome]

/-- The steps already read stay, and each portion of a text gives one more. -/
theorem length_of_keySteps? {read : List Step} {fuel text : List Char} {steps : List Step}
    (h : keySteps? read fuel text = some steps) :
    read.length ≤ steps.length ∧ (text ≠ [] → read.length < steps.length) := by
  induction fuel generalizing read text with
  | nil =>
    cases text with
    | nil =>
      cases h
      simp
    | cons => cases h
  | cons _ fuel ih =>
    cases text with
    | nil =>
      cases h
      simp
    | cons mark rest =>
      simp only [keySteps?] at h
      split at h
      · have hmore := (ih h).1
        rw [List.length_cons] at hmore
        exact ⟨by omega, fun _ => by omega⟩
      · cases h

/-- A step behind a mark is a name only where the mark is a point. -/
theorem name_of_step {mark : Char} {rest rest' : List Char} {name : String}
    (h : (if mark == '.' then takeName? rest else if mark == '[' then takePlace? rest else none) =
      some (.name name, rest')) :
    mark = '.' ∧ IsWord name ∧ rest = name.toList ++ rest' := by
  split at h
  · rename_i point
    obtain ⟨word, heq, isWord, htext⟩ := takeName?_eq_some h
    cases heq
    exact ⟨beq_iff_eq.mp point, isWord, htext⟩
  · split at h
    · rw [takePlace?] at h
      split at h
      · cases h
      · cases h
    · cases h

/-- **Behind the first of two names** stands the other one, and nothing more. -/
theorem of_keySteps?_pair {word part name : String} {rest : List Char}
    (h : keySteps? [.name word] rest rest = some [.name part, .name name]) :
    word = part ∧ IsWord name ∧ rest = '.' :: name.toList := by
  cases rest with
  | nil => cases h
  | cons mark rest =>
    simp only [keySteps?] at h
    split at h
    · rename_i step rest' hstep
      have hend : rest' = [] := by
        by_contra more
        have hlt := (length_of_keySteps? h).2 more
        simp at hlt
      subst hend
      have hread : [step, Step.name word].reverse = [.name part, .name name] := by
        cases rest with
        | nil => exact Option.some.inj h
        | cons => exact Option.some.inj h
      cases hread
      obtain ⟨rfl, isWord, hrest⟩ := name_of_step hstep
      rw [List.append_nil] at hrest
      exact ⟨rfl, isWord, hrest ▸ rfl⟩
    · cases h

/-- **A key of two names** is two words with a point between them. -/
theorem keyPath_eq_pair_iff {key part name : String} :
    keyPath key = [.name part, .name name] ↔
      IsWord part ∧ IsWord name ∧ key.toList = part.toList ++ '.' :: name.toList := by
  constructor
  · intro h
    rw [keyPath] at h
    split at h
    · cases h
    · rename_i step rest hfirst
      obtain ⟨word, rfl, isWord, htext⟩ := takeName?_eq_some hfirst
      cases hsteps : keySteps? [.name word] rest rest with
      | none =>
        rw [hsteps] at h
        cases h
      | some steps =>
        rw [hsteps, Option.getD_some] at h
        obtain ⟨rfl, isName, rfl⟩ := of_keySteps?_pair (hsteps.trans (congrArg some h))
        exact ⟨isWord, isName, htext⟩
  · rintro ⟨isPart, isName, hkey⟩
    have hfirst : takeName? key.toList = some (.name part, '.' :: name.toList) := by
      rw [hkey]
      exact takeName?_word isPart (by simp [isKeyChar])
    have hsecond : takeName? name.toList = some (.name name, []) := by
      have hword : takeName? (name.toList ++ []) = some (.name name, []) :=
        takeName?_word isName (by simp)
      rwa [List.append_nil] at hword
    simp [keyPath, hfirst, keySteps?, hsecond]

/-! ## Variables -/

/-- Without a point in it, a text was the same before. -/
theorem eq_of_pointed {cs : List Char} (h : '.' ∉ pointed cs) : pointed cs = cs := by
  induction cs using pointed.induct with
  | case1 rest ih => simp [pointed] at h
  | case2 c rest _ ih =>
    rw [pointed] at h ⊢
    · rw [ih fun mem => h (List.mem_cons_of_mem _ mem)]
    · assumption
    · assumption
  | case3 => rfl

/-- **A point between two words** was a point, or two underscores. -/
theorem eq_of_pointed_pair {cs part name : List Char} (hpart : '.' ∉ part) (hname : '.' ∉ name)
    (h : pointed cs = part ++ '.' :: name) :
    cs = part ++ '_' :: '_' :: name ∨ cs = part ++ '.' :: name := by
  induction cs using pointed.induct generalizing part with
  | case1 rest ih =>
    rw [pointed] at h
    cases part with
    | nil =>
      obtain ⟨-, rfl⟩ := List.cons.inj h
      exact .inl (by rw [eq_of_pointed hname]; rfl)
    | cons c part =>
      obtain ⟨rfl, -⟩ := List.cons.inj h
      exact absurd List.mem_cons_self hpart
  | case2 c rest _ ih =>
    rw [pointed] at h
    · cases part with
      | nil =>
        obtain ⟨rfl, rfl⟩ := List.cons.inj h
        exact .inr (by rw [eq_of_pointed hname]; rfl)
      | cons c' part =>
        obtain ⟨rfl, hrest⟩ := List.cons.inj h
        rcases ih (fun mem => hpart (List.mem_cons_of_mem _ mem)) hrest with rfl | rfl
        · exact .inl rfl
        · exact .inr rfl
    · assumption
  | case3 => cases part <;> cases h

/-- **What the name of a variable says** behind the marker, in small letters. -/
def Tells (name : String) (rest : List Char) : Prop :=
  (Text.lower name).toList = "hangar__".toList ++ rest

theorem variableKey?_eq_some_iff {name key : String} :
    variableKey? name = some key ↔ ∃ rest, Tells name rest ∧
      key = String.ofList (pointed rest) := by
  rw [variableKey?]
  constructor
  · intro h
    split at h
    · rename_i marked
      obtain ⟨rest, hrest⟩ := List.isPrefixOf_iff_prefix.mp marked
      refine ⟨rest, hrest.symm, ?_⟩
      rw [← hrest, List.drop_left] at h
      exact (Option.some.inj h).symm
    · cases h
  · rintro ⟨rest, tells, rfl⟩
    have marked : marker.isPrefixOf (Text.lower name).toList = true :=
      List.isPrefixOf_iff_prefix.mpr ⟨rest, tells.symm⟩
    rw [if_pos marked, tells, show "hangar__".toList = marker from rfl, List.drop_left]

/-- **A variable of the environment sets a setting**, in whatever letters its name is written: the
part and the name stand behind the marker with two underscores between them, or a point. -/
def Sets (environment : List (String × String)) (k : String × String) (v : Value) : Prop :=
  ∃ name text, (name, text) ∈ environment ∧ v = .scalar .environment (.text text) ∧
    (Text.lower name = "hangar__" ++ k.1 ++ "__" ++ k.2 ∨
      Text.lower name = "hangar__" ++ k.1 ++ "." ++ k.2)

/-- **A regular key**: its part and its name are words, and points for pairs of underscores do not
change them. -/
structure Regular (k : String × String) : Prop where
  part : IsWord k.1
  name : IsWord k.2
  spaced : pointed (k.1.toList ++ '_' :: '_' :: k.2.toList) = k.1.toList ++ '.' :: k.2.toList
  dotted : pointed (k.1.toList ++ '.' :: k.2.toList) = k.1.toList ++ '.' :: k.2.toList

/-- **An environment of single settings**: behind the marker each variable tells a part and a name,
and no two of them the same. -/
structure Singles (environment : List (String × String)) : Prop where
  entries : ∀ name text, (name, text) ∈ environment → ∀ rest, Tells name rest →
    ∃ part word, IsWord part ∧ IsWord word ∧ pointed rest = part.toList ++ '.' :: word.toList
  once : environment.Pairwise fun a b => ∀ rest rest', Tells a.1 rest → Tells b.1 rest' →
    pointed rest ≠ pointed rest'

variable {environment : List (String × String)} {k : String × String} {v : Value}

/-- A text of the environment is a single setting at most. -/
theorem mem_leavesOf_scalar {key : String} {origin : Origin} {scalar : Scalar} :
    (k, v) ∈ leavesOf (key, .scalar origin scalar) ↔
      keyPath key = [.name k.1, .name k.2] ∧ v = .scalar origin scalar := by
  simp only [leavesOf]
  split
  · rename_i heq
    cases heq
  · rename_i part name _ path
    rw [path, List.mem_singleton, Prod.mk.injEq]
    refine and_congr_left fun _ => ?_
    simp [Prod.ext_iff, eq_comm]
  · rename_i other _
    exact iff_of_false List.not_mem_nil fun h => other _ _ h.1

/-- The texts of two words with a point between them. -/
theorem keyPath_pointed_iff {rest : List Char} {part name : String} :
    keyPath (String.ofList (pointed rest)) = [.name part, .name name] ↔
      IsWord part ∧ IsWord name ∧ pointed rest = part.toList ++ '.' :: name.toList := by
  rw [keyPath_eq_pair_iff, String.toList_ofList]

/-- **What the layer of the environment sets**, by what its variables tell. -/
theorem mem_leaves_iff_tells : (k, v) ∈ (Layer.ofEnvironment environment).leaves ↔
    ∃ name text rest, (name, text) ∈ environment ∧ Tells name rest ∧
      v = .scalar .environment (.text text) ∧ IsWord k.1 ∧ IsWord k.2 ∧
      pointed rest = k.1.toList ++ '.' :: k.2.toList := by
  rw [Layer.leaves, List.mem_flatMap]
  constructor
  · rintro ⟨entry, hentry, hleaf⟩
    obtain ⟨⟨name, text⟩, mem, hkey⟩ := List.mem_filterMap.mp hentry
    obtain ⟨key, hname, rfl⟩ := Option.map_eq_some_iff.mp hkey
    obtain ⟨rest, tells, rfl⟩ := variableKey?_eq_some_iff.mp hname
    obtain ⟨path, rfl⟩ := mem_leavesOf_scalar.mp hleaf
    exact ⟨name, text, rest, mem, tells, rfl, keyPath_pointed_iff.mp path⟩
  · rintro ⟨name, text, rest, mem, tells, rfl, words⟩
    refine ⟨(String.ofList (pointed rest), .scalar .environment (.text text)), ?_, ?_⟩
    · refine List.mem_filterMap.mpr ⟨(name, text), mem, ?_⟩
      exact congrArg (Option.map _) (variableKey?_eq_some_iff.mpr ⟨rest, tells, rfl⟩)
    · exact mem_leavesOf_scalar.mpr ⟨keyPath_pointed_iff.mpr words, rfl⟩

theorem lower_eq_iff {name middle : String} : Text.lower name = "hangar__" ++ k.1 ++ middle ++ k.2 ↔
    Tells name (k.1.toList ++ (middle.toList ++ k.2.toList)) := by
  rw [Tells, ← String.toList_inj, String.toList_append, String.toList_append, String.toList_append,
    List.append_assoc, List.append_assoc]

/-- **The layer of the environment is what its variables set.** -/
theorem mem_leaves_ofEnvironment (regular : Regular k) :
    (k, v) ∈ (Layer.ofEnvironment environment).leaves ↔ Sets environment k v := by
  rw [mem_leaves_iff_tells]
  constructor
  · rintro ⟨name, text, rest, mem, tells, rfl, -, -, hrest⟩
    refine ⟨name, text, mem, rfl, ?_⟩
    rw [lower_eq_iff, lower_eq_iff]
    rcases eq_of_pointed_pair (point_not_mem regular.part) (point_not_mem regular.name) hrest with
      rfl | rfl
    · exact .inl tells
    · exact .inr tells
  · rintro ⟨name, text, mem, rfl, named⟩
    rw [lower_eq_iff, lower_eq_iff] at named
    rcases named with tells | tells
    · exact ⟨name, text, _, mem, tells, rfl, regular.part, regular.name, regular.spaced⟩
    · exact ⟨name, text, _, mem, tells, rfl, regular.part, regular.name, regular.dotted⟩

/-- One variable more. -/
theorem leaves_ofEnvironment_cons (entry : String × String)
    (environment : List (String × String)) :
    (Layer.ofEnvironment (entry :: environment)).leaves =
      (Layer.ofEnvironment [entry]).leaves ++ (Layer.ofEnvironment environment).leaves := by
  simp only [Layer.ofEnvironment, Layer.leaves, List.filterMap_cons, List.filterMap_nil]
  split <;> simp

theorem tells_inj {name : String} {rest rest' : List Char} (h : Tells name rest)
    (h' : Tells name rest') : rest = rest' :=
  List.append_cancel_left (h.symm.trans h')

/-- Among variables of single settings, no two leaves have the same key if no two of them tell the
same. -/
theorem nodup_leaves_iff (entries : ∀ name text, (name, text) ∈ environment → ∀ rest,
      Tells name rest → ∃ part word, IsWord part ∧ IsWord word ∧
        pointed rest = part.toList ++ '.' :: word.toList) :
    ((Layer.ofEnvironment environment).leaves.map Prod.fst).Nodup ↔
      environment.Pairwise fun a b => ∀ rest rest', Tells a.1 rest → Tells b.1 rest' →
        pointed rest ≠ pointed rest' := by
  induction environment with
  | nil => simp [Layer.ofEnvironment, Layer.leaves]
  | cons entry environment ih =>
    obtain ⟨name, text⟩ := entry
    have htail := ih fun name text mem => entries name text (List.mem_cons_of_mem _ mem)
    rw [leaves_ofEnvironment_cons, List.map_append, List.pairwise_cons, ← htail]
    cases hkey : variableKey? name with
    | none =>
      have hnothing : (Layer.ofEnvironment [(name, text)]).leaves = [] := by
        simp [Layer.ofEnvironment, Layer.leaves, hkey]
      rw [hnothing, List.map_nil, List.nil_append]
      refine (and_iff_right fun b _ rest rest' tells => ?_).symm
      rw [variableKey?_eq_some_iff.mpr ⟨rest, tells, rfl⟩] at hkey
      cases hkey
    | some key =>
      obtain ⟨rest, tells, rfl⟩ := variableKey?_eq_some_iff.mp hkey
      obtain ⟨part, word, isPart, isWord, hrest⟩ :=
        entries name text (List.mem_cons_self ..) rest tells
      have hleaf : (Layer.ofEnvironment [(name, text)]).leaves.map Prod.fst = [(part, word)] := by
        have path := keyPath_pointed_iff.mpr ⟨isPart, isWord, hrest⟩
        simp [Layer.ofEnvironment, Layer.leaves, hkey, leavesOf, path]
      rw [hleaf, List.singleton_append, List.nodup_cons]
      refine and_congr_left fun _ => ?_
      constructor
      · rintro fresh ⟨name', text'⟩ mem rest₀ rest' tells₀ tells' same
        obtain rfl := tells_inj tells tells₀
        refine fresh (List.mem_map.mpr
          ⟨((part, word), .scalar .environment (.text text')), ?_, rfl⟩)
        exact mem_leaves_iff_tells.mpr
          ⟨name', text', rest', mem, tells', rfl, isPart, isWord, same ▸ hrest⟩
      · intro differ mem
        obtain ⟨⟨k, v⟩, hmem, rfl⟩ := List.mem_map.mp mem
        obtain ⟨name', text', rest', mem', tells', -, -, -, hrest'⟩ := mem_leaves_iff_tells.mp hmem
        exact differ (name', text') mem' rest rest' tells tells' (hrest.trans hrest'.symm)

/-- **The layer of the environment is flat** exactly if its variables set single settings, each
once. -/
theorem flat_ofEnvironment_iff : (Layer.ofEnvironment environment).Flat ↔ Singles environment := by
  have hentries : (∀ entry ∈ Layer.ofEnvironment environment, isFlat entry = true) ↔
      ∀ name text, (name, text) ∈ environment → ∀ rest, Tells name rest →
        ∃ part word, IsWord part ∧ IsWord word ∧
          pointed rest = part.toList ++ '.' :: word.toList := by
    constructor
    · intro flat name text mem rest tells
      have hentry : (String.ofList (pointed rest), Value.scalar .environment (.text text)) ∈
          Layer.ofEnvironment environment :=
        List.mem_filterMap.mpr ⟨(name, text), mem,
          congrArg (Option.map _) (variableKey?_eq_some_iff.mpr ⟨rest, tells, rfl⟩)⟩
      rcases flat_cases (flat _ hentry) with ⟨_, _, _, _, table, -⟩ | ⟨part, word, path, -⟩
      · cases table
      · exact ⟨part, word, keyPath_pointed_iff.mp path⟩
    · rintro entries entry hentry
      obtain ⟨⟨name, text⟩, mem, hkey⟩ := List.mem_filterMap.mp hentry
      obtain ⟨key, hname, rfl⟩ := Option.map_eq_some_iff.mp hkey
      obtain ⟨rest, tells, rfl⟩ := variableKey?_eq_some_iff.mp hname
      obtain ⟨part, word, words⟩ := entries name text mem rest tells
      simp [isFlat, keyPath_pointed_iff.mpr words, Value.isLeaf]
  constructor
  · intro flat
    have entries := hentries.mp flat.entries
    exact ⟨entries, (nodup_leaves_iff entries).mp flat.once⟩
  · rintro ⟨entries, once⟩
    exact ⟨hentries.mpr entries, (nodup_leaves_iff entries).mpr once⟩

end OrderDesk.Config
