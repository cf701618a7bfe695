import FingerTracking.Config

/-!
# Every setting comes from the first layer that has it

A configuration is put together from the command line, one file, and what the profile and the
program bring along. Which file that is does not depend on what is in the others: it is the first
that can be read and understood, and a broken one counts as none at all. A setting that stands
nowhere comes from the profile, and the profile is itself a setting of the upper two layers.

To say this of each of the settings at once, `Setting` names them, and `Layer.get?`, `Config.get`
and `Profile.usual` tell what a layer, a configuration and a profile have under a name:

> `chosen_iff`: what the search finds, in terms of the files alone.
>
> `get_onProfile`, `get?_above`: a setting comes from the first layer that has it.
>
> `layered_load`: all of it together, and that nothing else of the files makes a difference.
-/

namespace FingerTracking

/-! ## Settings by name -/

/-- The settings that are taken from the first layer that has them: all but the profile, on which
others depend, and the filter, for which there are two flags. -/
inductive Setting where
  | device
  | screenWidth
  | screenHeight
  | xMax
  | yMax
  | trailLength
  | threshold
  | maxFingers
  | recordsPerCall
  | format
  | layout
deriving DecidableEq

/-- What can stand under a name. -/
def Setting.Value : Setting → Type
  | device => String
  | screenWidth | screenHeight | xMax | yMax | threshold => Int32
  | trailLength | maxFingers | recordsPerCall => Nat
  | format => Format
  | layout => Layout

/-- What a layer has under a name, if it has anything there. -/
def Layer.get? (l : Layer) : (s : Setting) → Option s.Value
  | .device => l.device
  | .screenWidth => l.screenWidth
  | .screenHeight => l.screenHeight
  | .xMax => l.xMax
  | .yMax => l.yMax
  | .trailLength => l.trailLength
  | .threshold => l.threshold
  | .maxFingers => l.maxFingers
  | .recordsPerCall => l.recordsPerCall
  | .format => l.format
  | .layout => l.layout

/-- What a configuration has under a name. -/
def Config.get (c : Config) : (s : Setting) → s.Value
  | .device => c.device
  | .screenWidth => c.screenWidth
  | .screenHeight => c.screenHeight
  | .xMax => c.xMax
  | .yMax => c.yMax
  | .trailLength => c.trailLength
  | .threshold => c.threshold
  | .maxFingers => c.maxFingers
  | .recordsPerCall => c.recordsPerCall
  | .format => c.format
  | .layout => c.layout

/-- What a setting is if it stands nowhere. -/
def Profile.usual (p : Profile) : (s : Setting) → s.Value
  | .device => p.device
  | .screenWidth => p.screenWidth
  | .screenHeight => p.screenHeight
  | .xMax => p.xMax
  | .yMax => p.yMax
  | .trailLength => (6 : Nat)
  | .threshold => (0 : Int32)
  | .maxFingers => (1 : Nat)
  | .recordsPerCall => (256 : Nat)
  | .format => Format.events
  | .layout => p.layout

/-- A layer hides the one below it, setting by setting and not as a whole. -/
theorem Layer.get?_above (l m : Layer) (s : Setting) :
    (l.above m).get? s = (l.get? s).or (m.get? s) := by
  cases s <;> rfl

/-- The flags for the filter leave the other settings as they were given. -/
theorem CommandLine.Arguments.get?_layer (a : Arguments) (s : Setting) :
    a.layer.get? s = a.given.get? s := by
  cases s <;> rfl

namespace Config

open CommandLine (Arguments)

variable {a : Arguments} {fs : Files} {paths : List String} {file other : Layer} {c d : Config}

/-- A configuration has what its layer has, and takes the rest from the profile and from what is
usual. -/
theorem get_onProfile (l : Layer) (p : Profile) (s : Setting) :
    (onProfile l p).get s = (l.get? s).getD (p.usual s) := by
  cases s <;> rfl

/-- A configuration is nothing but its settings. -/
theorem eq_of_get (hprofile : c.profile = d.profile) (hfiltered : c.filtered = d.filtered)
    (hget : ∀ s, c.get s = d.get s) : c = d := by
  obtain ⟨⟩ := c
  obtain ⟨⟩ := d
  congr
  · exact hget .device
  · exact hget .screenWidth
  · exact hget .screenHeight
  · exact hget .xMax
  · exact hget .yMax
  · exact hget .trailLength
  · exact hget .threshold
  · exact hget .maxFingers
  · exact hget .recordsPerCall
  · exact hget .format
  · exact hget .layout

/-! ## The file that is used -/

/-- What the file at a path sets, if it can be read and understood. -/
def fileAt? (fs : Files) (path : String) : Option Layer :=
  (fs.text? path).bind ConfigFile.read?

/-- Of the files at these paths the first that can be read and understood is used; if there is none,
the file is as good as empty. -/
def Chosen (fs : Files) (paths : List String) (file : Layer) : Prop :=
  (∃ before path after, paths = before ++ path :: after ∧ fileAt? fs path = some file ∧
    ∀ q ∈ before, fileAt? fs q = none) ∨
  (∀ path ∈ paths, fileAt? fs path = none) ∧ file = Layer.empty

/-- The search ends at the first file that can be read and understood; those that are missing or
broken before it leave only notes. -/
theorem layer_search (fs : Files) (paths : List String) :
    (search fs paths).layer = (paths.findSome? (fileAt? fs)).getD Layer.empty := by
  induction paths with
  | nil => rfl
  | cons path paths ih =>
    rw [search, List.findSome?_cons, fileAt?]
    cases fs.text? path with
    | none => exact ih
    | some text =>
      dsimp only [Option.bind_some]
      cases ConfigFile.read? text with
      | none => exact ih
      | some layer => rfl

/-- What the search finds is determined by the files and the order of their paths. -/
theorem chosen_iff : Chosen fs paths file ↔ (search fs paths).layer = file := by
  rw [layer_search]
  constructor
  · rintro (hsome | ⟨hnone, rfl⟩)
    · rw [List.findSome?_eq_some_iff.mpr hsome]
      rfl
    · rw [List.findSome?_eq_none_iff.mpr hnone]
      rfl
  · rintro rfl
    cases hfind : paths.findSome? (fileAt? fs) with
    | none => exact Or.inr ⟨List.findSome?_eq_none_iff.mp hfind, rfl⟩
    | some layer => exact Or.inl (List.findSome?_eq_some_iff.mp hfind)

/-- Where a configuration may be: at the path that is given, in the working directory, and in the
home directory. -/
def places (a : Arguments) (env : Environment) : List String :=
  [a.config, some "touch-synth.toml",
    env.home.map fun h => join (join h ".config") "touch-synth.toml"].reduceOption

/-- The paths are tried in the order of their places, without those that are not there. -/
theorem candidates_eq (a : Arguments) (env : Environment) : candidates a env = places a env := by
  rw [candidates, places]
  cases a.config <;> cases env.home <;> rfl

/-! ## The profile -/

/-- The profile that a name selects: no name the standard one, any other one that has it, whatever
the case of its letters. -/
def Selected : Option String → Profile → Prop
  | none, p => p = Profile.standard
  | some n, p => p ∈ Profile.all ∧ Profile.sameName p.name n = true

/-- A name that no profile has. -/
def Unknown (name : Option String) (n : String) : Prop :=
  name = some n ∧ ∀ p ∈ Profile.all, Profile.sameName p.name n = false

/-- Looking up a profile by its name comes out in one of two ways. The first profile with the name
is taken, or none has it and the fault lists the names that there are. The configuration fails in no
other way. -/
theorem profileOf_cases (name : Option String) :
    (∃ p, profileOf name = .ok p ∧ Selected name p ∧ ∀ n, ¬ Unknown name n) ∨
      ∃ n, profileOf name = .error (.config (.unknownProfile n Profile.names)) ∧
        Unknown name n := by
  cases name with
  | none => exact Or.inl ⟨_, rfl, rfl, fun n h => nomatch h.1⟩
  | some n =>
    rw [profileOf]
    cases hfind : Profile.ofName? n with
    | none =>
      refine Or.inr ⟨n, rfl, rfl, fun p hp => ?_⟩
      exact Bool.eq_false_iff.mpr (List.find?_eq_none.mp hfind p hp)
    | some p =>
      have hmem := List.mem_of_find?_eq_some hfind
      have hname := List.find?_some hfind
      refine Or.inl ⟨p, rfl, ⟨hmem, hname⟩, ?_⟩
      rintro k ⟨hk, hnone⟩
      obtain rfl := Option.some_inj.mp hk
      exact Bool.false_ne_true ((hnone p hmem).symm.trans hname)

/-! ## All layers together -/

/-- What comes of the command line and a file: a configuration, unless the name of the profile is
one that no profile has. -/
structure Layered (a : Arguments) (file : Layer) (result : Except Fault Config) : Prop where
  error_iff : ∀ f, result = .error f ↔
    ∃ n, Unknown (a.given.profile.or file.profile) n ∧
      f = .config (.unknownProfile n Profile.names)
  profile : ∀ c, result = .ok c → Selected (a.given.profile.or file.profile) c.profile
  /-- Every setting is that of the command line, else that of the file, else the usual one. -/
  get : ∀ c, result = .ok c →
    ∀ s, c.get s = ((a.given.get? s).or (file.get? s)).getD (c.profile.usual s)
  /-- The filter is off if it is switched off, and else on if it is switched on anywhere. -/
  filtered : ∀ c, result = .ok c →
    (c.filtered = true ↔ a.filterOff = false ∧ (a.filterOn = true ∨ file.filtered = some true))

/-- Two files agree on what the command line leaves open. -/
structure AgreeBelow (a : Arguments) (file other : Layer) : Prop where
  profile : a.given.profile = none → file.profile = other.profile
  get : ∀ s, a.given.get? s = none → file.get? s = other.get? s
  filtered : a.filterOff = false → a.filterOn = false →
    (file.filtered = some true ↔ other.filtered = some true)

theorem option_or_congr {α : Type} {x y z : Option α} (h : x = none → y = z) : x.or y = x.or z := by
  cases x with
  | none => exact congrArg _ (h rfl)
  | some _ => rfl

/-- Switching the filter off wins over everything; a file can only switch it on. -/
theorem filtered_above_iff (a : Arguments) (file : Layer) :
    (a.layer.above file).filtered.getD false = true ↔
      a.filterOff = false ∧ (a.filterOn = true ∨ file.filtered = some true) := by
  rw [Layer.above, Arguments.layer]
  cases a.filterOff with
  | true => simp
  | false =>
    cases a.filterOn with
    | true => simp
    | false => cases file.filtered <;> simp

/-- A configuration made of one layer above another one is layered, whatever the two are. Its two
cases are those of `profileOf_cases`. -/
theorem layered_ofLayer (a : Arguments) (file : Layer) :
    Layered a file (ofLayer (a.layer.above file)) := by
  have hname : (a.layer.above file).profile = a.given.profile.or file.profile := rfl
  rw [ofLayer, hname]
  rcases profileOf_cases (a.given.profile.or file.profile) with
    ⟨p, hp, hselected, hknown⟩ | ⟨n, hn, hunknown⟩
  · rw [hp]
    refine ⟨fun f => ⟨nofun, ?_⟩, ?_, ?_, ?_⟩
    · rintro ⟨n, hn, -⟩
      exact absurd hn (hknown n)
    all_goals
      intro c hc
      obtain rfl := Except.ok.inj hc
    · exact hselected
    · intro s
      rw [get_onProfile, Layer.get?_above, Arguments.get?_layer]
      rfl
    · exact filtered_above_iff a file
  · rw [hn]
    refine ⟨fun f => ⟨?_, ?_⟩, nofun, nofun, nofun⟩
    · intro hf
      exact ⟨n, hunknown, (Except.error.inj hf).symm⟩
    · rintro ⟨k, ⟨hk, -⟩, rfl⟩
      obtain rfl := Option.some_inj.mp (hk.symm.trans hunknown.1)
      rfl

/-- What the command line sets hides what the file has there. -/
theorem ofLayer_above_congr (h : AgreeBelow a file other) :
    ofLayer (a.layer.above file) = ofLayer (a.layer.above other) := by
  have hname : (a.layer.above file).profile = (a.layer.above other).profile :=
    option_or_congr h.profile
  have hfiltered : (a.layer.above file).filtered.getD false =
      (a.layer.above other).filtered.getD false := by
    rw [Bool.eq_iff_iff, filtered_above_iff, filtered_above_iff]
    refine and_congr_right fun hoff => ?_
    cases hon : a.filterOn with
    | true => simp
    | false => exact or_congr_right (h.filtered hoff hon)
  have honProfile : onProfile (a.layer.above file) = onProfile (a.layer.above other) := by
    funext p
    have hget : ∀ s, (onProfile (a.layer.above file) p).get s =
        (onProfile (a.layer.above other) p).get s := by
      intro s
      rw [get_onProfile, get_onProfile, Layer.get?_above, Layer.get?_above, Arguments.get?_layer,
        option_or_congr (h.get s)]
    exact eq_of_get (c := onProfile _ p) (d := onProfile _ p) rfl hfiltered hget
  rw [ofLayer, ofLayer, hname, honProfile]

/-- **Every setting comes from the first layer that has it.** One file is used, the first of those
in their places that can be read and understood, and the configuration is layered on it. Any other
environment and files give the same configuration if the file that is used there agrees with it on
what the command line leaves open. -/
theorem layered_load (a : Arguments) (env : Environment) (fs : Files) :
    ∃ file, Chosen fs (places a env) file ∧ Layered a file (load a env fs).config ∧
      ∀ env' fs' other, Chosen fs' (places a env') other → AgreeBelow a file other →
        (load a env' fs').config = (load a env fs).config := by
  refine ⟨(search fs (candidates a env)).layer, ?_, layered_ofLayer a _, ?_⟩
  · rw [← candidates_eq, chosen_iff]
  · intro env' fs' other hother hagree
    rw [← candidates_eq, chosen_iff] at hother
    subst hother
    exact (ofLayer_above_congr hagree).symm

/-- The file that is given is broken, so the one in the working directory is used. With another one
in the home directory instead, which differs in a setting of the command line only, nothing
changes. -/
theorem layered_load_past_a_broken_file :
    let file (text : String) : Except IoFault Medium := .ok (.file text.toUTF8.toList)
    let fs : Files := ⟨fun path =>
      if path = "broken.toml" then file "x_max = wide"
      else if path = "touch-synth.toml" then file "profile = \"EMULATOR\"\nx_max = 4095"
      else .error .notFound⟩
    let fs' : Files := ⟨fun path =>
      if path = "/home/.config/touch-synth.toml" then
        file "profile = \"EMULATOR\"\nx_max = 4095\ncoord_buffer_size = 3"
      else .error .notFound⟩
    let a : Arguments :=
      { given := { trailLength := some 9 }, filterOn := true, config := some "broken.toml" }
    let used : Layer := { profile := some "EMULATOR", xMax := some 4095 }
    let c : Config :=
      { Config.onProfile {} Profile.emulator with xMax := 4095, trailLength := 9, filtered := true }
    Chosen fs (places a {}) used ∧ Layered a used (.ok c) ∧
      (load a {} fs).config = .ok c ∧ (load a { home := some "/home" } fs').config = .ok c := by
  intro file fs fs' a used c
  obtain ⟨chosen, hchosen, hlayered, hsame⟩ := layered_load a {} fs
  obtain rfl : chosen = used := (chosen_iff.mp hchosen).symm.trans (by decide +kernel)
  have hload : (load a {} fs).config = .ok c := by
    have hprofile : profileOf (some "EMULATOR") = .ok Profile.emulator := rfl
    show ofLayer (a.layer.above (search fs (candidates a {})).layer) = _
    rw [candidates_eq, chosen_iff.mp hchosen, ofLayer]
    exact congrArg (Except.map _) hprofile
  rw [hload] at hlayered hsame
  refine ⟨hchosen, hlayered, hload, ?_⟩
  apply hsame _ _ { used with trailLength := some 3 }
  · exact chosen_iff.mpr (by decide +kernel)
  · refine ⟨fun _ => rfl, ?_, fun _ _ => Iff.rfl⟩
    intro s hs
    cases s with
    | trailLength => exact nomatch hs
    | _ => rfl

end Config

end FingerTracking
