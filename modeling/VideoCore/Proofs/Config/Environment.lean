import Mathlib.Data.List.Nodup
import VideoCore.Config.Environment
import VideoCore.Proofs.Text.Numerals

/-!
# Configurations read back from an environment

A configuration can be written down as an environment, one variable for each of its parts, and is read
back from it, whatever the privileges of the reader (`read_toEnvironment_iff`). The poll interval is
written in microseconds, so this takes an interval of whole microseconds that fit 64 bits.

Other environments give the same configuration. What a value says is stated here without the reader
(`SaysNo`, `Usable`), and `Harmless` lists the replacements of a single value that make no difference: a
flag that says no need not be set, one that says yes may say so in any other way, and a number that
cannot be used need not be set. The last is the only one that is noticed, by the warning that it takes
away.
-/

namespace VideoCore.Config

open Text (Blank Bare Padded Denotes trim isBlank padded_trim trim_of_padded readWord?_trim
  denotes_decimal readWord? decimal)

variable {privileged : Bool} {env env' : Environment} {s t : Setting} {value : Option String}
  {text : String} {c : Config}

/-! ## What a value says -/

/-- A value says no: blanks aside and in any letter case, it is one of four words. -/
def SaysNo (text : String) : Prop :=
  ∃ word, Padded word text.toList ∧
    String.ofList (word.map Char.toLower) ∈ ["0", "false", "no", "off"]

/-- The numbers that a setting can use are those below its limit. A flag has none. -/
def Setting.limit? : Setting → Option Nat
  | .cacheForce => some 4
  | .pollInterval => some UInt64.size
  | _ => none

/-- A setting that is on or off. -/
def Setting.isFlag (s : Setting) : Bool := s.limit?.isNone

/-- A value denotes a number that a setting can use. -/
def Usable (s : Setting) (text : String) : Prop :=
  ∃ n, Denotes text.toList n ∧ ∃ limit, s.limit? = some limit ∧ n < limit

theorem isBlank_toLower (c : Char) : isBlank c.toLower = isBlank c := by
  unfold Char.toLower
  split
  · next hupper =>
    have hlow : 65 ≤ c.toNat := hupper.1
    have hhigh : c.toNat ≤ 90 := hupper.2
    have hlower : (c.val + ('a'.val - 'A'.val)).toNat = c.toNat + 32 := by
      rw [UInt32.toNat_add, show ('a'.val - 'A'.val).toNat = 32 by decide, Nat.mod_eq_of_lt]
      · rfl
      · show c.toNat + 32 < 2 ^ 32
        omega
    simp only [isBlank, Text.blankCodes, List.contains_eq_mem, List.mem_cons, List.not_mem_nil,
      or_false, decide_eq_decide, Char.toNat] at *
    omega
  · rfl

/-- Letters keep their place when their case is changed. -/
theorem bare_of_map_toLower {word : List Char} (h : Bare (word.map Char.toLower)) : Bare word where
  first c hc := by
    rw [← isBlank_toLower]
    exact h.first _ (by simpa using ⟨c, hc, rfl⟩)
  last c hc := by
    rw [← isBlank_toLower]
    exact h.last _ (by simpa using ⟨c, hc, rfl⟩)

theorem bare_of_mem_falsy {word : List Char} (h : word ∈ falsy) : Bare word := by
  have hall : ∀ word ∈ falsy, word.head?.any isBlank = false ∧ word.getLast?.any isBlank = false := by
    decide
  obtain ⟨hfirst, hlast⟩ := hall word h
  constructor
  · intro c hc
    rw [Option.mem_def.mp hc] at hfirst
    exact hfirst
  · intro c hc
    rw [Option.mem_def.mp hc] at hlast
    exact hlast

theorem ofList_mem_iff {word : List Char} :
    String.ofList word ∈ ["0", "false", "no", "off"] ↔ word ∈ falsy := by
  simp only [falsy, List.mem_cons, List.not_mem_nil, or_false, ← String.toList_inj,
    String.toList_ofList]

theorem turnsOn_eq_false_iff : turnsOn text = false ↔ SaysNo text := by
  have hcontains : turnsOn text = false ↔ (trim text.toList).map Char.toLower ∈ falsy := by
    simp [turnsOn]
  rw [hcontains]
  constructor
  · exact fun h => ⟨_, padded_trim _, ofList_mem_iff.mpr h⟩
  · rintro ⟨word, hpadded, hno⟩
    have hword := ofList_mem_iff.mp hno
    rwa [trim_of_padded (bare_of_map_toLower (bare_of_mem_falsy hword)) hpadded]

theorem turnsOn_iff : turnsOn text = true ↔ ¬ SaysNo text := by
  rw [← turnsOn_eq_false_iff, Bool.not_eq_false]

/-! ## Numbers -/

theorem readCache?_eq_none_iff : readCache? (trim text.toList) = none ↔ ¬ Usable .cacheForce text := by
  have hindex : ∀ n, CachePolicy.ofIndex? n = none ↔ 4 ≤ n := fun n => List.getElem?_eq_none_iff
  unfold readCache?
  cases hread : readWord? 8 (trim text.toList) with
  | none =>
    refine iff_of_true rfl ?_
    rintro ⟨n, hn, limit, hlimit, hlt⟩
    cases hlimit
    rw [readWord?_trim.mpr ⟨hn, Nat.lt_of_lt_of_le hlt (by decide)⟩] at hread
    cases hread
  | some n =>
    have hn := (readWord?_trim.mp hread).1
    rw [Option.bind_some, hindex, ← Nat.not_lt]
    refine not_congr ⟨fun hlt => ⟨n, hn, 4, rfl, hlt⟩, ?_⟩
    rintro ⟨m, hm, limit, hlimit, hlt⟩
    cases hlimit
    rwa [hn.unique hm]

theorem readMicroseconds?_eq_none_iff :
    readMicroseconds? (trim text.toList) = none ↔ ¬ Usable .pollInterval text := by
  rw [readMicroseconds?, Option.map_eq_none_iff, Option.eq_none_iff_forall_ne_some]
  constructor
  · rintro h ⟨n, hn, limit, hlimit, hlt⟩
    cases hlimit
    exact h n (readWord?_trim.mpr ⟨hn, hlt⟩)
  · intro h n hread
    obtain ⟨hn, hlt⟩ := readWord?_trim.mp hread
    exact h ⟨n, hn, UInt64.size, rfl, hlt⟩

/-! ## One variable replaced -/

/-- The environment in which one variable has another value, or is not set. -/
def Environment.assign (env : Environment) (s : Setting) (value : Option String) : Environment :=
  fun name => if name = s.variableName then value else env name

theorem variableName_inj (h : s.variableName = t.variableName) : s = t :=
  List.inj_on_of_nodup_map Setting.nodup_variableNames (Setting.mem_all s) (Setting.mem_all t) h

theorem assign_self : env.assign s value s.variableName = value :=
  if_pos rfl

theorem assign_of_ne (h : t ≠ s) : env.assign s value t.variableName = env t.variableName :=
  if_neg fun hname => h (variableName_inj hname)

theorem flag_assign_self : flag (env.assign s value) s = value.any turnsOn := by
  rw [flag, assign_self]

theorem flag_assign_of_ne (h : t ≠ s) : flag (env.assign s value) t = flag env t := by
  rw [flag, assign_of_ne h, flag]

section Reading

variable {α : Type} {read : List Char → Option α}

theorem readSetting_of_unset (hset : env s.variableName = none) :
    readSetting env s read = (none, []) := by
  rw [readSetting, hset]

theorem readSetting_of_read (hset : env s.variableName = some text) {a : α}
    (hread : read (trim text.toList) = some a) : readSetting env s read = (some a, []) := by
  rw [readSetting, hset]
  dsimp only
  rw [hread]

theorem readSetting_of_unread (hset : env s.variableName = some text)
    (hread : read (trim text.toList) = none) : readSetting env s read = (none, [⟨s, text⟩]) := by
  rw [readSetting, hset]
  dsimp only
  rw [hread]

theorem readSetting_assign_of_ne (h : t ≠ s) :
    readSetting (env.assign s value) t read = readSetting env t read := by
  rw [readSetting, assign_of_ne h, readSetting]

/-- A value that cannot be read may as well not be set, but for the warning. -/
theorem readSetting_unset (hset : env s.variableName = some text)
    (hread : read (trim text.toList) = none) :
    (readSetting (env.assign s none) s read).1 = (readSetting env s read).1 ∧
    (readSetting env s read).2 = [⟨s, text⟩] ∧ (readSetting (env.assign s none) s read).2 = [] := by
  rw [readSetting_of_unread hset hread, readSetting_of_unset assign_self]
  exact ⟨rfl, rfl, rfl⟩

/-- A setting is warned of under its own name. -/
theorem setting_of_mem_warnings {w : Warning} (h : w ∈ (readSetting env s read).2) :
    w.setting = s := by
  unfold readSetting at h
  split at h
  · cases h
  split at h
  · cases h
  · rw [List.mem_singleton.mp h]

end Reading

/-! ## Warnings -/

/-- The warnings about one setting. -/
def warningsOf (env : Environment) : Setting → List Warning
  | .cacheForce => (readSetting env .cacheForce readCache?).2
  | .pollInterval => (readSetting env .pollInterval readMicroseconds?).2
  | _ => []

theorem warnings_eq (privileged : Bool) (env : Environment) :
    (ofEnvironment privileged env).2 = warningsOf env .cacheForce ++ warningsOf env .pollInterval :=
  rfl

theorem setting_of_mem_warningsOf {w : Warning} (h : w ∈ warningsOf env s) : w.setting = s := by
  cases s with
  | cacheForce | pollInterval => exact setting_of_mem_warnings h
  | _ => cases h

theorem warningsOf_of_isFlag (h : s.isFlag = true) : warningsOf env s = [] := by
  cases s with
  | cacheForce | pollInterval => cases h
  | _ => rfl

theorem warningsOf_assign_of_ne (h : t ≠ s) :
    warningsOf (env.assign s value) t = warningsOf env t := by
  cases t with
  | cacheForce | pollInterval => rw [warningsOf, readSetting_assign_of_ne h, warningsOf]
  | _ => rfl

/-- The warnings about a setting are found among all of them, and leave those about the other. -/
theorem filter_warnings (privileged : Bool) (env : Environment) (s : Setting) :
    (ofEnvironment privileged env).2.filter (·.setting == s) = warningsOf env s ∧
    (ofEnvironment privileged env).2.filter (·.setting != s) =
      (if s = .cacheForce then [] else warningsOf env .cacheForce) ++
      (if s = .pollInterval then [] else warningsOf env .pollInterval) := by
  -- either list speaks of one setting alone
  have hsame (t : Setting) : (warningsOf env t).filter (·.setting == s) =
      if s = t then warningsOf env t else [] := by
    split
    · next h =>
      refine List.filter_eq_self.mpr fun w hw => beq_iff_eq.mpr ?_
      exact (setting_of_mem_warningsOf hw).trans h.symm
    · next h =>
      refine List.filter_eq_nil_iff.mpr fun w hw hsetting => h ?_
      exact (beq_iff_eq.mp hsetting).symm.trans (setting_of_mem_warningsOf hw)
  have hothers (t : Setting) : (warningsOf env t).filter (·.setting != s) =
      if s = t then [] else warningsOf env t := by
    split
    · next h =>
      refine List.filter_eq_nil_iff.mpr fun w hw hsetting => bne_iff_ne.mp hsetting ?_
      exact (setting_of_mem_warningsOf hw).trans h.symm
    · next h =>
      refine List.filter_eq_self.mpr fun w hw => bne_iff_ne.mpr fun hsetting => h ?_
      exact hsetting.symm.trans (setting_of_mem_warningsOf hw)
  rw [warnings_eq, List.filter_append, List.filter_append, hsame, hsame, hothers, hothers]
  refine ⟨?_, rfl⟩
  cases s with
  | cacheForce => simp
  | pollInterval => simp
  | _ => rfl

/-! ## Environments that make no difference -/

/-- A configuration depends on which flags are on, and on the numbers that are read. -/
theorem ofEnvironment_congr (hflags : ∀ t, t.isFlag = true → flag env' t = flag env t)
    (hcache : (readSetting env' .cacheForce readCache?).1 = (readSetting env .cacheForce readCache?).1)
    (hinterval : (readSetting env' .pollInterval readMicroseconds?).1 =
      (readSetting env .pollInterval readMicroseconds?).1) :
    (ofEnvironment privileged env').1 = (ofEnvironment privileged env).1 := by
  unfold ofEnvironment choose
  simp (disch := decide) only [List.find?_cons, List.find?_nil, hflags, hcache, hinterval]

/-- The replacements of one value that make no difference, each with the warnings that it takes
away. -/
inductive Harmless (env : Environment) : Setting → Option String → List Warning → Prop where
  /-- A flag that says no need not be set. -/
  | unsetFlag {s : Setting} {text : String} (hflag : s.isFlag = true)
      (hset : env s.variableName = some text) (hno : SaysNo text) : Harmless env s none []
  /-- A flag that does not say no may say anything else that is not no. -/
  | otherFlag {s : Setting} {text : String} (hflag : s.isFlag = true)
      (hset : env s.variableName = some text) (hyes : ¬ SaysNo text) (other : String)
      (hother : ¬ SaysNo other) : Harmless env s (some other) []
  /-- A number that cannot be used need not be set. -/
  | unsetNumber {s : Setting} {text : String} (hnumber : s.isFlag = false)
      (hset : env s.variableName = some text) (hunusable : ¬ Usable s text) :
      Harmless env s none [⟨s, text⟩]

variable {lost : List Warning}

/-- A replacement of one flag by another that is on or off like it. -/
theorem ofEnvironment_assign_flag (hflag : s.isFlag = true) (hsame : value.any turnsOn = flag env s) :
    (ofEnvironment privileged (env.assign s value)).1 = (ofEnvironment privileged env).1 := by
  have hnumber : ∀ t : Setting, t.isFlag = false → t ≠ s := by
    rintro t ht rfl
    rw [hflag] at ht
    cases ht
  refine ofEnvironment_congr (fun t ht => ?_) ?_ ?_
  · by_cases h : t = s
    · rw [h, flag_assign_self, hsame]
    · exact flag_assign_of_ne h
  · rw [readSetting_assign_of_ne (hnumber _ rfl)]
  · rw [readSetting_assign_of_ne (hnumber _ rfl)]

/-- A number that cannot be used is read like none at all, and warned of once. -/
theorem unusable_read (hnumber : s.isFlag = false) (hset : env s.variableName = some text)
    (hunusable : ¬ Usable s text) :
    (ofEnvironment privileged (env.assign s none)).1 = (ofEnvironment privileged env).1 ∧
    warningsOf env s = [⟨s, text⟩] ∧ warningsOf (env.assign s none) s = [] := by
  have hflags (t : Setting) (ht : t.isFlag = true) : flag (env.assign s none) t = flag env t := by
    refine flag_assign_of_ne ?_
    rintro rfl
    rw [hnumber] at ht
    cases ht
  cases s with
  | cacheForce =>
    obtain ⟨hsame, hwarned, hquiet⟩ := readSetting_unset hset (readCache?_eq_none_iff.mpr hunusable)
    have hother : readSetting (env.assign .cacheForce none) .pollInterval readMicroseconds? =
        readSetting env .pollInterval readMicroseconds? := readSetting_assign_of_ne (by decide)
    exact ⟨ofEnvironment_congr hflags hsame (congrArg Prod.fst hother), hwarned, hquiet⟩
  | pollInterval =>
    obtain ⟨hsame, hwarned, hquiet⟩ :=
      readSetting_unset hset (readMicroseconds?_eq_none_iff.mpr hunusable)
    have hother : readSetting (env.assign .pollInterval none) .cacheForce readCache? =
        readSetting env .cacheForce readCache? := readSetting_assign_of_ne (by decide)
    exact ⟨ofEnvironment_congr hflags (congrArg Prod.fst hother) hsame, hwarned, hquiet⟩
  | _ => cases hnumber

theorem Harmless.same (privileged : Bool) (h : Harmless env s value lost) :
    (ofEnvironment privileged (env.assign s value)).1 = (ofEnvironment privileged env).1 ∧
    warningsOf env s = lost ∧ warningsOf (env.assign s value) s = [] := by
  cases h with
  | unsetFlag hflag hset hno =>
    refine ⟨ofEnvironment_assign_flag hflag ?_, warningsOf_of_isFlag hflag, warningsOf_of_isFlag hflag⟩
    rw [flag, hset]
    exact (turnsOn_eq_false_iff.mpr hno).symm
  | otherFlag hflag hset hyes other hother =>
    refine ⟨ofEnvironment_assign_flag hflag ?_, warningsOf_of_isFlag hflag, warningsOf_of_isFlag hflag⟩
    rw [flag, hset]
    exact (turnsOn_iff.mpr hother).trans (turnsOn_iff.mpr hyes).symm
  | unsetNumber hnumber hset hunusable => exact unusable_read hnumber hset hunusable

/-! ## The canonical environment -/

theorem toEnvironment_variableName (c : Config) (s : Setting) :
    toEnvironment c s.variableName = settingOf c s := by
  have hfind : Setting.all.find? (fun t => t.variableName == s.variableName) = some s := by
    cases s <;> decide
  rw [toEnvironment, hfind, Option.bind_some]

theorem flag_toEnvironment (c : Config) (s : Setting) :
    flag (toEnvironment c) s = (settingOf c s).any turnsOn := by
  rw [flag, toEnvironment_variableName]

/-- Setting a variable to 1 turns its flag on, and leaving it out does not. -/
theorem any_turnsOn_ite (b : Bool) : (if b then some "1" else none).any turnsOn = b := by
  cases b <;> decide

theorem choose_execution (c : Config) (otherwise : ExecutionMode) :
    choose (toEnvironment c) [(.executeRegisters, .registers), (.executeMailbox, .mailbox),
      (.executeGpuService, .gpuService)] otherwise = c.execution := by
  unfold choose
  simp only [flag_toEnvironment, settingOf]
  cases c.execution <;> rfl

theorem choose_memory (c : Config) (otherwise : MemoryMode) :
    choose (toEnvironment c) [(.memoryPool, .sharedPool), (.memoryShared, .shared),
      (.memoryMailbox, .mailbox)] otherwise = c.memory := by
  unfold choose
  simp only [flag_toEnvironment, settingOf]
  cases c.memory <;> rfl

theorem read_cacheForce (c : Config) :
    readSetting (toEnvironment c) .cacheForce readCache? = (c.forcedCache, []) := by
  have hset := toEnvironment_variableName c .cacheForce
  cases hcache : c.forcedCache with
  | none =>
    rw [settingOf, hcache] at hset
    exact readSetting_of_unset hset
  | some cache =>
    rw [settingOf, hcache] at hset
    have hindex : cache.index < 1 <<< 8 := by cases cache <;> decide
    refine readSetting_of_read hset ?_
    rw [readCache?, readWord?_trim.mpr ⟨denotes_decimal _, hindex⟩]
    exact CachePolicy.ofIndex?_index cache

theorem read_pollInterval (c : Config) :
    readSetting (toEnvironment c) .pollInterval readMicroseconds? =
      if c.pollInterval.nanoseconds / 1000 < UInt64.size then
        (some (.ofMicroseconds (c.pollInterval.nanoseconds / 1000)), [])
      else (none, [⟨.pollInterval, decimal (c.pollInterval.nanoseconds / 1000)⟩]) := by
  have hset := toEnvironment_variableName c .pollInterval
  split
  · next hfits =>
    refine readSetting_of_read hset ?_
    rw [readMicroseconds?, readWord?_trim.mpr ⟨denotes_decimal _, hfits⟩, Option.map_some]
  · next hlarge =>
    refine readSetting_of_unread hset (readMicroseconds?_eq_none_iff.mpr ?_)
    rintro ⟨n, hn, limit, hlimit, hlt⟩
    cases hlimit
    rw [hn.unique (denotes_decimal _)] at hlt
    exact hlarge hlt

/-- A configuration is read back from the environment that it is written down as exactly if its poll
interval is of whole microseconds that fit 64 bits. -/
theorem read_toEnvironment_iff (privileged : Bool) (c : Config) :
    ofEnvironment privileged (toEnvironment c) = (c, []) ↔
      ∃ us < UInt64.size, c.pollInterval = .ofMicroseconds us := by
  have hread : ofEnvironment privileged (toEnvironment c) =
      ({ c with pollInterval := (readSetting (toEnvironment c) .pollInterval
          readMicroseconds?).1.getD .zero },
        (readSetting (toEnvironment c) .pollInterval readMicroseconds?).2) := by
    unfold ofEnvironment
    simp only [choose_execution, choose_memory, read_cacheForce, flag_toEnvironment, settingOf,
      any_turnsOn_ite, List.nil_append]
    cases privileged <;> rfl
  rw [hread, read_pollInterval]
  constructor
  · intro h
    split at h
    · next hfits =>
      exact ⟨_, hfits, (congrArg (fun r => r.1.pollInterval) h).symm⟩
    · cases congrArg Prod.snd h
  · rintro ⟨us, hfits, hus⟩
    have hwhole : c.pollInterval.nanoseconds / 1000 = us := by
      rw [hus]
      exact Nat.mul_div_cancel us (by decide)
    rw [hwhole, if_pos hfits, ← hus]
    rfl

/-- A configuration is read back from its canonical environment, with or without privileges, and a
harmless replacement of one value in any environment leaves the configuration as it is. A number that
cannot be used is warned of exactly once, with its value as it was set, and every other warning stays. -/
theorem environment_read_back (privileged : Bool) :
    (∀ c, ofEnvironment privileged (toEnvironment c) = (c, []) ↔
      ∃ us < UInt64.size, c.pollInterval = .ofMicroseconds us) ∧
    ∀ env s value lost, Harmless env s value lost →
      (ofEnvironment privileged (env.assign s value)).1 = (ofEnvironment privileged env).1 ∧
      (ofEnvironment privileged env).2.filter (·.setting == s) = lost ∧
      (ofEnvironment privileged (env.assign s value)).2 =
        (ofEnvironment privileged env).2.filter (·.setting != s) := by
  refine ⟨read_toEnvironment_iff privileged, fun env s value lost h => ?_⟩
  obtain ⟨hconfig, hlost, hnone⟩ := h.same privileged
  obtain ⟨hself, hothers⟩ := filter_warnings privileged env s
  refine ⟨hconfig, hself.trans hlost, ?_⟩
  have hleft (t : Setting) : warningsOf (env.assign s value) t =
      if s = t then [] else warningsOf env t := by
    split
    · next hs =>
      rw [← hs, hnone]
    · next hs => exact warningsOf_assign_of_ne (Ne.symm hs)
  rw [warnings_eq, hothers, hleft, hleft]

/-- A configuration that differs from both defaults. -/
def sampleConfig : Config where
  emulated := true
  execution := .mailbox
  memory := .shared
  forcedCache := some .gpuCached
  disableV3d := true
  pollInterval := .ofMicroseconds 50

/-- A flag that says no, one that says yes by being set, and the number of no cache policy. -/
def sampleEnvironment : Environment := fun name =>
  [("VC4_NO_V3D", " Off "), ("VC4_EMULATOR", ""), ("VC4_CACHE_FORCE", "+04 ")].lookup name

theorem environment_read_back_sample :
    ofEnvironment true (toEnvironment sampleConfig) = (sampleConfig, []) ∧
    Harmless sampleEnvironment .noV3d none [] ∧
    Harmless sampleEnvironment .emulator (some "none") [] ∧
    Harmless sampleEnvironment .cacheForce none [⟨.cacheForce, "+04 "⟩] ∧
    (ofEnvironment true (sampleEnvironment.assign .cacheForce none)).1 =
      (ofEnvironment true sampleEnvironment).1 ∧
    (ofEnvironment true sampleEnvironment).2.filter (·.setting == .cacheForce) =
      [⟨.cacheForce, "+04 "⟩] := by
  have hall := environment_read_back true
  have hcache : Harmless sampleEnvironment .cacheForce none [⟨.cacheForce, "+04 "⟩] :=
    .unsetNumber rfl rfl (readCache?_eq_none_iff.mp (by decide))
  have hv3d : sampleEnvironment Setting.noV3d.variableName = some " Off " := rfl
  have hemulator : sampleEnvironment Setting.emulator.variableName = some "" := rfl
  have hno : SaysNo " Off " := turnsOn_eq_false_iff.mp (by decide)
  have hyes : ¬ SaysNo "" := turnsOn_iff.mp (by decide)
  have hother : ¬ SaysNo "none" := turnsOn_iff.mp (by decide)
  obtain ⟨hsame, hwarned, -⟩ := hall.2 _ _ _ _ hcache
  exact ⟨(hall.1 sampleConfig).mpr ⟨50, by decide, rfl⟩, .unsetFlag rfl hv3d hno,
    .otherFlag rfl hemulator hyes "none" hother, hcache, hsame, hwarned⟩

end VideoCore.Config
