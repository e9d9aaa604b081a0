/-
No descendant of a command is left behind a success.

The descendants form a forest below the supervisor: as long as the subreaper flag is set, the
parent of each is the supervisor or an older one that is alive.  So the oldest that is left
is a child of the supervisor.  No one else can wait for it, and a scan of `/proc` that
succeeds finds it, outside of the group of the caller.  A process inside of that group is
never signalled.
-/
import YamlSigil.Tooling.Supervision

namespace YamlSigil
namespace Tooling

open YamlSigil.Core Control Format.SemVer

/-! ## The line of a process -/

theorem behindLastBracket_eq_none {t : Text} (h : ')' ∉ t) : behindLastBracket t = none := by
  induction t with
  | nil => rfl
  | cons c rest ih =>
    obtain ⟨hc, hrest⟩ := not_or.mp (mt List.mem_cons.mpr h)
    rw [behindLastBracket, ih hrest, if_neg fun hbracket => hc hbracket.1.symm]
    rfl

/-- A name may hold any text, brackets included. -/
theorem behindLastBracket_append (s : Text) {t : Text} (h : ')' ∉ t) :
    behindLastBracket (s ++ ')' :: ' ' :: t) = some t := by
  induction s with
  | nil =>
    have hspace : ')' ∉ ' ' :: t := by simpa using h
    rw [List.nil_append, behindLastBracket, behindLastBracket_eq_none hspace,
      if_pos ⟨rfl, rfl⟩]
    rfl
  | cons c s ih =>
    rw [List.cons_append, behindLastBracket, ih]
    rfl

theorem toNat_lt_of_isAlpha {c : Char} (h : c.isAlpha = true) : c.toNat < 128 := by
  have hranges : (decide ('A'.val ≤ c.val ∧ c.val ≤ 'Z'.val) ||
      (decide ('a'.val ≤ c.val) && decide (c.val ≤ 'z'.val))) = true := h
  simp only [Bool.or_eq_true, Bool.and_eq_true, decide_eq_true_eq,
    UInt32.le_iff_toNat_le] at hranges
  rcases hranges with h | h
  · exact Nat.lt_of_le_of_lt h.2 (by decide)
  · exact Nat.lt_of_le_of_lt h.2 (by decide)

theorem isWhitespace_eq_false {c : Char} (h : c.isAlpha = true ∨ c.isDigit = true) :
    isWhitespace c = false := by
  have hlt : c.toNat < 128 := by
    rcases h with h | h
    · exact toNat_lt_of_isAlpha h
    · exact Nat.lt_of_le_of_lt (Char.isDigit_iff_toNat.mp h).2 (by decide)
  have hall : ∀ n < 128, (Char.ofNat n).isAlpha = true ∨ (Char.ofNat n).isDigit = true →
      isWhitespace (Char.ofNat n) = false := by decide
  have hc := hall c.toNat hlt
  rw [Char.ofNat_toNat] at hc
  exact hc h

theorem splitWhitespace_cons {word rest : Text} (hne : word ≠ [])
    (h : ∀ c ∈ word, isWhitespace c = false) :
    splitWhitespace (word ++ ' ' :: rest) = word :: splitWhitespace rest := by
  unfold splitWhitespace
  rw [List.splitOnP_append_cons_of_forall_mem h ' ' rfl, List.filter_cons_of_pos (by simpa using hne)]

/-- The parent is read back from the line, whatever the name of the process is. -/
theorem parentOfStat_statText {pid : Pid} {proc : Proc} {state rest : Text}
    (h : StatFields state rest) (hlt : proc.parent < 2 ^ 31) :
    parentOfStat (statText pid proc state rest) = .ok (proc.parent : Int) := by
  have hdigits : ∀ c ∈ digits proc.parent, c.isDigit = true :=
    List.all_eq_true.mp (all_isDigit_digits proc.parent)
  have hbracket : ')' ∉ state ++ ' ' :: (digits proc.parent ++ ' ' :: rest) := by
    intro hmem
    simp only [List.mem_append, List.mem_cons] at hmem
    rcases hmem with hstate | hspace | hparent | hspace | hrest
    · exact absurd (h.state_alpha _ hstate) (by decide)
    · exact absurd hspace (by decide)
    · exact absurd (hdigits _ hparent) (by decide)
    · exact absurd hspace (by decide)
    · exact absurd (h.rest_fields _ hrest) (by decide)
  have htext : statText pid proc state rest = digits pid ++ " (".toList ++ proc.comm ++
      ')' :: ' ' :: (state ++ ' ' :: (digits proc.parent ++ ' ' :: rest)) := by
    simp [statText]
  unfold parentOfStat
  rw [htext, behindLastBracket_append _ hbracket]
  dsimp only
  rw [splitWhitespace_cons h.state_ne_nil fun c hc => isWhitespace_eq_false (.inl
    (h.state_alpha c hc)), splitWhitespace_cons (digits_ne_nil _) fun c hc =>
    isWhitespace_eq_false (.inr (hdigits c hc))]
  simp only [List.getElem?_cons_succ, List.getElem?_cons_zero, parseI32_digits hlt]

/-! ## The forest of descendants -/

/-- What holds of a descendant of the command. -/
structure Contained (setting : Setting) (s : Machine) (pid : Pid) (proc : Proc) : Prop where
  used : s.used pid
  pos : 0 < pid
  lt : pid < 2 ^ 31
  birth : proc.birth < s.births
  group : proc.group ≠ setting.callerGroup
  parent : s.Heir setting proc.birth proc.parent

/-- The supervisor adopts, and every descendant is in the forest.  The children that were
there before the command are none of them. -/
structure Kin (setting : Setting) (baseline : Finset Int) (s : Machine) : Prop where
  subreaper : s.subreaper = true
  old : ∀ pid : Pid, (pid : Int) ∈ baseline →
    s.used pid ∧ ∀ proc, s.procs pid = some proc → proc.descends = false
  contained : ∀ pid proc, s.procs pid = some proc → proc.descends = true →
    Contained setting s pid proc

/-- No descendant is left, alive or not. -/
def Clear (s : Machine) : Prop := ∀ pid proc, s.procs pid = some proc → proc.descends = false

/-- A descendant that only the supervisor can wait for. -/
def Stays (setting : Setting) (pid : Pid) (s : Machine) : Prop :=
  ∃ proc, s.procs pid = some proc ∧ proc.descends = true ∧ proc.parent = setting.self

variable {setting : Setting} {baseline : Finset Int} {s t : Machine}

/-- The oldest descendant is a child of the supervisor. -/
theorem Machine.Heir.mono {birth : Nat} {heir : Pid} (h : s.Heir setting birth heir)
    (hsub : t.subreaper = s.subreaper)
    (helder : ∀ elder, s.procs heir = some elder → elder.descends = true → elder.zombie = none →
      elder.birth < birth → ∃ elder', t.procs heir = some elder' ∧ elder'.descends = true ∧
        elder'.zombie = none ∧ elder'.birth = elder.birth) :
    t.Heir setting birth heir := by
  rcases h with ⟨hs, rfl⟩ | ⟨elder, hproc, hdescends, hlive, hlt⟩
  · exact .inl ⟨hsub.trans hs, rfl⟩
  · obtain ⟨elder', hproc', hdescends', hlive', hbirth⟩ := helder elder hproc hdescends hlive hlt
    exact .inr ⟨elder', hproc', hdescends', hlive', hbirth ▸ hlt⟩

theorem Kin.clear_or_stays (h : Kin setting baseline s) :
    Clear s ∨ ∃ pid, Stays setting pid s := by
  by_cases hclear : Clear s
  · exact .inl hclear
  refine .inr ?_
  unfold Clear at hclear
  push Not at hclear
  obtain ⟨pid, proc, hpid, hdescends⟩ := hclear
  rw [Bool.ne_false_iff] at hdescends
  induction hbirth : proc.birth using Nat.strong_induction_on generalizing pid proc with
  | _ birth ih =>
    subst hbirth
    rcases (h.contained pid proc hpid hdescends).parent with ⟨-, hself⟩ |
      ⟨elder, helder, hdescends', -, hlt⟩
    · exact ⟨pid, proc, hpid, hdescends, hself⟩
    · exact ih elder.birth hlt proc.parent elder helder hdescends' rfl

/-- The processes are the same. -/
theorem Kin.of_procs_eq (h : Kin setting baseline s) (hprocs : t.procs = s.procs)
    (hused : t.used = s.used) (hbirths : t.births = s.births)
    (hsub : t.subreaper = s.subreaper) : Kin setting baseline t where
  subreaper := hsub.trans h.subreaper
  old := by
    rw [hused, hprocs]
    exact h.old
  contained pid proc hpid hdescends := by
    rw [hprocs] at hpid
    have hc := h.contained pid proc hpid hdescends
    refine ⟨?_, hc.pos, hc.lt, ?_, hc.group, hc.parent.mono hsub fun elder helder hd hz _ => ?_⟩
    · rw [hused]
      exact hc.used
    · rw [hbirths]
      exact hc.birth
    · rw [hprocs]
      exact ⟨elder, helder, hd, hz, rfl⟩

/-- A process that goes on with another name or group. -/
theorem Kin.modify {pid : Pid} {proc proc' : Proc} (h : Kin setting baseline s)
    (hpid : s.procs pid = some proc) (hdescends : proc'.descends = proc.descends)
    (hzombie : proc'.zombie = proc.zombie) (hbirth : proc'.birth = proc.birth)
    (hparent : proc'.parent = proc.parent)
    (hgroup : proc'.descends = true → proc'.group ≠ setting.callerGroup) :
    Kin setting baseline (s.setProc pid (some proc')) where
  subreaper := h.subreaper
  old q hq := by
    refine ⟨(h.old q hq).1, fun r hr => ?_⟩
    by_cases heq : q = pid
    · subst heq
      simp only [Machine.procs_setProc, Option.some.injEq] at hr
      subst hr
      exact hdescends.trans ((h.old q hq).2 proc hpid)
    · simp only [Machine.procs_setProc_of_ne _ _ heq] at hr
      exact (h.old q hq).2 r hr
  contained q r hr hd := by
    have helders : ∀ heir birth, s.Heir setting birth heir →
        (s.setProc pid (some proc')).Heir setting birth heir := by
      intro heir birth hheir
      refine hheir.mono rfl fun elder helder he hz _ => ?_
      by_cases heq : heir = pid
      · subst heq
        rw [hpid] at helder
        cases helder
        exact ⟨proc', by simp [Machine.setProc], hdescends.trans he, hzombie.trans hz, hbirth⟩
      · exact ⟨elder, by simpa [Machine.setProc, heq] using helder, he, hz, rfl⟩
    by_cases heq : q = pid
    · subst heq
      simp only [Machine.procs_setProc, Option.some.injEq] at hr
      subst hr
      have hc := h.contained q proc hpid (hdescends ▸ hd)
      refine ⟨hc.used, hc.pos, hc.lt, ?_, hgroup hd, ?_⟩
      · rw [hbirth]
        exact hc.birth
      · rw [hparent, hbirth]
        exact helders _ _ hc.parent
    · simp only [Machine.procs_setProc_of_ne _ _ heq] at hr
      have hc := h.contained q r hr hd
      exact ⟨hc.used, hc.pos, hc.lt, hc.birth, hc.group, helders _ _ hc.parent⟩

/-- No one descends from a zombie. -/
theorem Kin.remove {pid : Pid} {proc : Proc} (h : Kin setting baseline s)
    (hpid : s.procs pid = some proc) (hzombie : proc.zombie ≠ none) :
    Kin setting baseline (s.setProc pid none) where
  subreaper := h.subreaper
  old q hq := by
    refine ⟨(h.old q hq).1, fun r hr => ?_⟩
    by_cases heq : q = pid
    · simp [Machine.setProc, heq] at hr
    · simp only [Machine.procs_setProc_of_ne _ _ heq] at hr
      exact (h.old q hq).2 r hr
  contained q r hr hd := by
    by_cases heq : q = pid
    · simp [Machine.setProc, heq] at hr
    · simp only [Machine.procs_setProc_of_ne _ _ heq] at hr
      have hc := h.contained q r hr hd
      refine ⟨hc.used, hc.pos, hc.lt, hc.birth, hc.group, hc.parent.mono rfl
        fun elder helder he hz _ => ⟨elder, ?_, he, hz, rfl⟩⟩
      by_cases heq' : r.parent = pid
      · rw [heq', hpid] at helder
        cases helder
        exact absurd hz hzombie
      · simpa [Machine.setProc, heq'] using helder

/-- The machine behind a birth. -/
abbrev Machine.bear (s : Machine) (fresh : Pid) (proc : Proc) : Machine :=
  { s.setProc fresh (some proc) with
    used := fun q => s.used q ∨ q = fresh, births := s.births + 1 }

theorem Kin.bear {fresh : Pid} {p : Proc} (h : Kin setting baseline s)
    (hfresh : ¬s.used fresh) (hpos : 0 < fresh) (hlt : fresh < 2 ^ 31)
    (hbirth : p.birth = s.births)
    (hgroup : p.descends = true → p.group ≠ setting.callerGroup)
    (hparent : p.descends = true → s.Heir setting s.births p.parent) :
    Kin setting baseline (s.bear fresh p) := by
  have hne : ∀ {q : Pid}, s.used q → q ≠ fresh := fun hq heq => hfresh (heq ▸ hq)
  have helders : ∀ heir birth, s.Heir setting birth heir →
      (s.bear fresh p).Heir setting birth heir := by
    intro heir birth hheir
    refine hheir.mono rfl fun elder helder he hz _ => ⟨elder, ?_, he, hz, rfl⟩
    have hused := (h.contained heir elder helder he).used
    simpa [Machine.setProc, hne hused] using helder
  refine ⟨h.subreaper, fun q hq => ?_, fun q r hr hd => ?_⟩
  · obtain ⟨hused, hold⟩ := h.old q hq
    refine ⟨.inl hused, fun r hr => hold r ?_⟩
    simpa [Machine.setProc, hne hused] using hr
  · by_cases heq : q = fresh
    · subst heq
      simp only [Machine.procs_setProc, Option.some.injEq] at hr
      subst hr
      refine ⟨.inr rfl, hpos, hlt, ?_, hgroup hd, ?_⟩
      · rw [hbirth]
        exact Nat.lt_succ_self _
      · rw [hbirth]
        exact helders _ _ (hparent hd)
    · simp only [Machine.procs_setProc_of_ne _ _ heq] at hr
      have hc := h.contained q r hr hd
      exact ⟨.inl hc.used, hc.pos, hc.lt, Nat.lt_succ_of_lt hc.birth, hc.group,
        helders _ _ hc.parent⟩

/-- The machine behind an exit. -/
abbrev Machine.bury (s : Machine) (pid heir : Pid) (proc : Proc) (status : ExitStatus) : Machine :=
  (s.setProc pid (some { proc with zombie := some status })).reparent pid heir

/-- What was a process before an exit, and what has become of it. -/
theorem procs_bury {pid heir q : Pid} {proc r : Proc} {status : ExitStatus}
    (hpid : s.procs pid = some proc) (hr : (s.bury pid heir proc status).procs q = some r) :
    ∃ r₀, s.procs q = some r₀ ∧ r.descends = r₀.descends ∧ r.birth = r₀.birth ∧
      r.group = r₀.group ∧ r.parent = if r₀.parent = pid then heir else r₀.parent := by
  simp only [Machine.bury, Machine.reparent, Machine.setProc, Option.map_eq_some_iff] at hr
  obtain ⟨r₁, hr₁, rfl⟩ := hr
  by_cases heq : q = pid
  · subst heq
    rw [Function.update_self, Option.some.injEq] at hr₁
    subst hr₁
    refine ⟨proc, hpid, ?_⟩
    by_cases hparent : proc.parent = q <;> simp [hparent]
  · rw [Function.update_of_ne heq] at hr₁
    refine ⟨r₁, hr₁, ?_⟩
    by_cases hparent : r₁.parent = pid <;> simp [hparent]

theorem procs_bury_of_ne {pid heir q : Pid} {proc r : Proc} {status : ExitStatus} (hne : q ≠ pid)
    (hq : s.procs q = some r) :
    ∃ r', (s.bury pid heir proc status).procs q = some r' ∧ r'.descends = r.descends ∧
      r'.zombie = r.zombie ∧ r'.birth = r.birth ∧
      r'.parent = if r.parent = pid then heir else r.parent := by
  refine ⟨if r.parent = pid then { r with parent := heir } else r, ?_, ?_⟩
  · simp [Machine.reparent, Machine.setProc, Function.update_of_ne hne, hq]
  · by_cases hparent : r.parent = pid <;> simp [hparent]

/-- The children of a process that exits go to an older one. -/
theorem Kin.bury {pid heir : Pid} {proc : Proc} {status : ExitStatus}
    (h : Kin setting baseline s) (hpid : s.procs pid = some proc)
    (hself : pid ≠ setting.self)
    (hheir : proc.descends = true → s.subreaper = true → s.Heir setting proc.birth heir) :
    Kin setting baseline (s.bury pid heir proc status) where
  subreaper := h.subreaper
  old q hq := by
    refine ⟨(h.old q hq).1, fun r hr => ?_⟩
    obtain ⟨r₀, hr₀, hd, -⟩ := procs_bury hpid hr
    exact hd.trans ((h.old q hq).2 r₀ hr₀)
  contained q r hr hd := by
    obtain ⟨r₀, hr₀, hd₀, hbirth, hgroup, hparent⟩ := procs_bury hpid hr
    have hc := h.contained q r₀ hr₀ (hd₀ ▸ hd)
    have helders : ∀ heir' birth, heir' ≠ pid → s.Heir setting birth heir' →
        (s.bury pid heir proc status).Heir setting birth heir' := by
      intro heir' birth hne hheir'
      refine hheir'.mono rfl fun elder helder he hz _ => ?_
      obtain ⟨elder', helder', he', hz', hb', -⟩ := procs_bury_of_ne hne helder
      exact ⟨elder', helder', he'.trans he, hz'.trans hz, hb'⟩
    refine ⟨hc.used, hc.pos, hc.lt, ?_, ?_, ?_⟩
    · rw [hbirth]
      exact hc.birth
    · rw [hgroup]
      exact hc.group
    · rw [hparent, hbirth]
      by_cases heq : r₀.parent = pid
      · rw [if_pos heq]
        -- the process that exits was the elder, and its heir is older still
        rcases hc.parent with ⟨-, hp⟩ | ⟨elder, helder, he, -, hlt⟩
        · exact absurd (heq.symm.trans hp) hself
        · rw [heq, hpid] at helder
          cases helder
          have hheir' := hheir he h.subreaper
          refine helders heir r₀.birth ?_ ?_
          · rintro rfl
            rcases hheir' with ⟨-, hp⟩ | ⟨other, hother, -, -, hlt'⟩
            · exact hself hp
            · rw [hpid] at hother
              cases hother
              exact Nat.lt_irrefl _ hlt'
          · rcases hheir' with hp | ⟨other, hother, ho, hz, hlt'⟩
            · exact .inl hp
            · exact .inr ⟨other, hother, ho, hz, Nat.lt_trans hlt' hlt⟩
      · rw [if_neg heq]
        exact helders _ _ heq hc.parent

theorem Kin.env (h : Kin setting baseline s) (hstep : Env setting s t) :
    Kin setting baseline t := by
  cases hstep with
  | @fork pid fresh proc hpid hlive hfresh hpos hlt =>
    refine h.bear hfresh hpos hlt rfl (fun hd => (h.contained pid proc hpid hd).group) fun hd => ?_
    exact .inr ⟨proc, hpid, hd, hlive, (h.contained pid proc hpid hd).birth⟩
  | @rename pid proc comm hpid =>
    exact h.modify hpid rfl rfl rfl rfl fun hd => (h.contained pid proc hpid hd).group
  | regroup group hpid hgroup => exact h.modify hpid rfl rfl rfl rfl hgroup
  | exit status hpid hlive hself hheir => exact h.bury hpid hself hheir
  | collect hpid hzombie => exact h.remove hpid hzombie
  | write stream => cases stream <;> exact h.of_procs_eq rfl rfl rfl rfl
  | close stream => cases stream <;> exact h.of_procs_eq rfl rfl rfl rfl
  | tick => exact h.of_procs_eq rfl rfl rfl rfl

theorem Kin.later (h : Kin setting baseline s) (hlater : Later setting s t) :
    Kin setting baseline t := by
  induction hlater with
  | refl => exact h
  | tail _ hstep ih => exact ih.env hstep

/-! ## What calls do to processes -/

/-- Only a spawn bears, and only a zombie is waited for. -/
structure Effect (q : Syscall) (s t : Machine) : Prop where
  procs : q ≠ .spawn → t.used = s.used ∧ t.births = s.births ∧
    (t.procs = s.procs ∨ ∃ pid proc, s.procs pid = some proc ∧ proc.zombie ≠ none ∧
      t.procs = Function.update s.procs pid none)
  used : ∀ pid, s.used pid → t.used pid
  subreaper : (∀ enabled, q ≠ .setChildSubreaper enabled) → t.subreaper = s.subreaper
  killed : ∀ pid ∈ t.killed, pid ∈ s.killed ∨ q = .killProcess pid ∨
    q = .killChild ∧ s.child = some pid
  groupsKilled : ∀ group ∈ t.groupsKilled, group ∈ s.groupsKilled ∨ q = .killGroup group
  child : q ≠ .spawn → t.child = s.child

theorem Effect.refl (q : Syscall) (s : Machine) : Effect q s s :=
  ⟨fun _ => ⟨rfl, rfl, .inl rfl⟩, fun _ h => h, fun _ => rfl, fun _ h => .inl h,
    fun _ h => .inl h, fun _ => rfl⟩

theorem effect_setProc_none {q : Syscall} {pid : Pid} {proc : Proc} (reaped : Option ExitStatus)
    (hpid : s.procs pid = some proc) (hzombie : proc.zombie ≠ none) :
    Effect q s { s.setProc pid none with reaped := reaped } :=
  ⟨fun _ => ⟨rfl, rfl, .inr ⟨pid, proc, hpid, hzombie, rfl⟩⟩, fun _ h => h, fun _ => rfl,
    fun _ h => .inl h, fun _ h => .inl h, fun _ => rfl⟩

/-- While a directory is listed everything else goes on. -/
theorem answers_effect {q : Syscall} (hq : q ≠ .readDir) {a : Answer q}
    (h : answers setting s q a t) : Effect q s t := by
  cases q with
  | readDir => exact absurd rfl hq
  | childSubreaper | ownGroup | readStat | getpgid | now =>
    obtain ⟨rfl, -⟩ := h
    exact .refl _ _
  | setNonblocking =>
    cases h
    exact .refl _ _
  | killChild =>
    cases h
    refine ⟨fun _ => ⟨rfl, rfl, .inl rfl⟩, fun _ h => h, fun _ => rfl, fun p hp => ?_,
      fun _ h => .inl h, fun _ => rfl⟩
    rcases List.mem_append.mp hp with hp | hp
    · split_ifs at hp
      · exact .inr (.inr ⟨rfl, Option.mem_toList.mp hp⟩)
      · cases hp
    · exact .inl hp
  | setChildSubreaper enabled =>
    rcases h with ⟨-, rfl⟩ | ⟨-, rfl⟩
    · exact ⟨fun _ => ⟨rfl, rfl, .inl rfl⟩, fun _ h => h, fun h => absurd rfl (h enabled),
        fun _ h => .inl h, fun _ h => .inl h, fun _ => rfl⟩
    · exact .refl _ _
  | spawn =>
    rcases h with ⟨_, _, -, -, -, -, rfl⟩ | ⟨-, rfl⟩
    · exact ⟨fun h => absurd rfl h, fun _ h => .inl h, fun _ => rfl, fun _ h => .inl h,
        fun _ h => .inl h, fun h => absurd rfl h⟩
    · exact .refl _ _
  | read stream =>
    rcases h with ⟨-, rfl⟩ | ⟨_, -, -, -, rfl⟩
    · exact .refl _ _
    · cases stream <;> exact ⟨fun _ => ⟨rfl, rfl, .inl rfl⟩, fun _ h => h, fun _ => rfl,
        fun _ h => .inl h, fun _ h => .inl h, fun _ => rfl⟩
  | write =>
    rcases h with ⟨-, rfl⟩ | ⟨_, -, rfl⟩
    · exact .refl _ _
    · exact ⟨fun _ => ⟨rfl, rfl, .inl rfl⟩, fun _ h => h, fun _ => rfl, fun _ h => .inl h,
        fun _ h => .inl h, fun _ => rfl⟩
  | tryWait =>
    rcases h with ⟨-, rfl⟩ | ⟨_, -, -, rfl⟩ | ⟨-, -, rfl, -⟩ |
      ⟨_, _, status, -, -, -, hproc, hzombie, rfl⟩
    · exact .refl _ _
    · exact .refl _ _
    · exact .refl _ _
    · exact effect_setProc_none _ hproc (by rw [hzombie]; exact Option.some_ne_none _)
  | killGroup group =>
    cases h
    refine ⟨fun _ => ⟨rfl, rfl, .inl rfl⟩, fun _ h => h, fun _ => rfl, fun _ h => .inl h,
      fun g hg => ?_, fun _ => rfl⟩
    rcases List.mem_cons.mp hg with rfl | hg
    · exact .inr rfl
    · exact .inl hg
  | killProcess pid =>
    cases h
    refine ⟨fun _ => ⟨rfl, rfl, .inl rfl⟩, fun _ h => h, fun _ => rfl, fun p hp => ?_,
      fun _ h => .inl h, fun _ => rfl⟩
    rcases List.mem_cons.mp hp with rfl | hp
    · exact .inr (.inl rfl)
    · exact .inl hp
  | waitpid pid =>
    rcases h with ⟨-, rfl⟩ | ⟨-, rfl⟩ | ⟨_, _, -, hproc, -, hzombie, rfl⟩
    · exact .refl _ _
    · exact .refl _ _
    · exact effect_setProc_none s.reaped hproc (by rw [hzombie]; exact Option.some_ne_none _)
  | sleep =>
    obtain ⟨n, -, rfl⟩ := h
    exact ⟨fun _ => ⟨rfl, rfl, .inl rfl⟩, fun _ h => h, fun _ => rfl, fun _ h => .inl h,
      fun _ h => .inl h, fun _ => rfl⟩

theorem Kin.effect {q : Syscall} (h : Kin setting baseline s) (heffect : Effect q s t)
    (hspawn : q ≠ .spawn) (hsub : ∀ enabled, q ≠ .setChildSubreaper enabled) :
    Kin setting baseline t := by
  obtain ⟨hused, hbirths, hprocs | ⟨pid, proc, hpid, hzombie, hprocs⟩⟩ := heffect.procs hspawn
  · exact h.of_procs_eq hprocs hused hbirths (heffect.subreaper hsub)
  · exact (h.remove hpid hzombie).of_procs_eq hprocs hused hbirths (heffect.subreaper hsub)

theorem Clear.effect {q : Syscall} (h : Clear s) (heffect : Effect q s t) (hspawn : q ≠ .spawn) :
    Clear t := by
  intro pid r hr
  obtain ⟨-, -, hprocs | ⟨pid', _, -, -, hprocs⟩⟩ := heffect.procs hspawn
  · exact h pid r (hprocs ▸ hr)
  · rw [hprocs] at hr
    by_cases heq : pid = pid'
    · simp [heq] at hr
    · rw [Function.update_of_ne heq] at hr
      exact h pid r hr

theorem Clear.setProc {pid : Pid} {r : Option Proc} (h : Clear s)
    (hr : ∀ proc, r = some proc → proc.descends = false) : Clear (s.setProc pid r) := by
  intro q proc hproc
  by_cases heq : q = pid
  · rw [heq, Machine.procs_setProc] at hproc
    exact hr proc hproc
  · rw [Machine.procs_setProc_of_ne s r heq] at hproc
    exact h q proc hproc

theorem Clear.env (h : Clear s) (hstep : Env setting s t) : Clear t := by
  cases hstep with
  | @fork pid fresh proc hpid | @rename pid proc comm hpid | @regroup pid proc group hpid =>
    refine h.setProc fun proc' hproc' => ?_
    cases hproc'
    exact h pid proc hpid
  | exit status hpid =>
    intro q r hr
    obtain ⟨r₀, hr₀, hd, -⟩ := procs_bury hpid hr
    exact hd.trans (h q r₀ hr₀)
  | collect => exact h.setProc fun _ hproc => (by cases hproc)
  | write stream => cases stream <;> exact h
  | close stream => cases stream <;> exact h
  | tick => exact h

theorem Clear.later (h : Clear s) (hlater : Later setting s t) : Clear t := by
  induction hlater with
  | refl => exact h
  | tail _ hstep ih => exact ih.env hstep

/-- No one else waits for a child of the supervisor, and the supervisor does not exit. -/
theorem Stays.env {p : Pid} (h : Stays setting p s) (hkin : Kin setting baseline s)
    (hstep : Env setting s t) : Stays setting p t := by
  obtain ⟨r, hr, hd, hparent⟩ := h
  have hset : ∀ {pid : Pid} {proc proc' : Proc}, s.procs pid = some proc →
      proc'.descends = proc.descends → proc'.parent = proc.parent →
      Stays setting p (s.setProc pid (some proc')) := by
    intro pid proc proc' hpid hdescends hparent'
    by_cases heq : p = pid
    · subst heq
      rw [hpid] at hr
      cases hr
      exact ⟨proc', by simp [Machine.setProc], hdescends.trans hd, hparent'.trans hparent⟩
    · exact ⟨r, by simpa [Machine.setProc, heq] using hr, hd, hparent⟩
  cases hstep with
  | @fork pid fresh proc hpid hlive hfresh =>
    have hne : p ≠ fresh := fun heq => hfresh (heq ▸ (hkin.contained p r hr hd).used)
    exact ⟨r, by simpa [Machine.setProc, hne] using hr, hd, hparent⟩
  | rename comm hpid => exact hset hpid rfl rfl
  | regroup group hpid => exact hset hpid rfl rfl
  | @exit pid heir proc status hpid hlive hself =>
    have hne : r.parent ≠ pid := fun heq => hself (heq.symm.trans hparent)
    by_cases heq : p = pid
    · subst heq
      rw [hpid] at hr
      cases hr
      exact ⟨{ r with zombie := some status }, by
        simp [Machine.reparent, Machine.setProc, hne], hd, hparent⟩
    · exact ⟨r, by simp [Machine.reparent, Machine.setProc, heq, hr, hne], hd, hparent⟩
  | @collect pid proc hpid hzombie hother =>
    have hne : p ≠ pid := by
      rintro rfl
      rw [hpid] at hr
      cases hr
      exact hother hd hparent
    exact ⟨r, by simpa [Machine.setProc, hne] using hr, hd, hparent⟩
  | write stream => cases stream <;> exact ⟨r, hr, hd, hparent⟩
  | close stream => cases stream <;> exact ⟨r, hr, hd, hparent⟩
  | tick => exact ⟨r, hr, hd, hparent⟩

theorem Stays.later {p : Pid} (h : Stays setting p s) (hkin : Kin setting baseline s)
    (hlater : Later setting s t) : Stays setting p t := by
  induction hlater with
  | refl => exact h
  | tail hsteps hstep ih => exact ih.env (hkin.later hsteps) hstep

/-- Births and calls apart, nothing is numbered, signalled or flagged. -/
theorem Later.frame (h : Later setting s t) : (∀ pid, s.used pid → t.used pid) ∧
    t.subreaper = s.subreaper ∧ t.killed = s.killed ∧ t.groupsKilled = s.groupsKilled := by
  induction h with
  | refl => exact ⟨fun _ h => h, rfl, rfl, rfl⟩
  | tail _ hstep ih =>
    obtain ⟨hused, hsub, hkilled, hgroups⟩ := ih
    cases hstep with
    | fork => exact ⟨fun pid h => .inl (hused pid h), hsub, hkilled, hgroups⟩
    | rename | regroup | exit | collect | tick => exact ⟨hused, hsub, hkilled, hgroups⟩
    | write stream => cases stream <;> exact ⟨hused, hsub, hkilled, hgroups⟩
    | close stream => cases stream <;> exact ⟨hused, hsub, hkilled, hgroups⟩

/-! ## Contained runs -/

/-- The bystanders are in the group of the caller all the time. -/
def worldBeside (setting : Setting) (bystanders : Pid → Prop) :
    World Syscall Answer Machine :=
  fun q s a t => world setting q s a t ∧ ∀ pid proc, bystanders pid → t.procs pid = some proc →
    proc.group = setting.callerGroup

/-- Neither a bystander nor the group of the caller was signalled, and the command is not a
bystander. -/
structure Spares (setting : Setting) (bystanders : Pid → Prop) (s : Machine) : Prop where
  caller : s.used setting.callerGroup
  child : ∀ pid, s.child = some pid → ¬bystanders pid
  killed : ∀ pid ∈ s.killed, ¬bystanders pid
  groups : setting.callerGroup ∉ s.groupsKilled

abbrev Contains (setting : Setting) (bystanders : Pid → Prop) {α : Type}
    (post : α → Machine → Prop) (p : Supervising α) (s : Machine) : Prop :=
  Looping.Does (worldBeside setting bystanders) (fun _ t => Spares setting bystanders t)
    (fun _ => True) post p s

variable {bystanders : Pid → Prop}

theorem Spares.later (h : Spares setting bystanders s) (hlater : Later setting s t) :
    Spares setting bystanders t := by
  obtain ⟨hused, -, hkilled, hgroups⟩ := hlater.frame
  refine ⟨hused _ h.caller, ?_, ?_, ?_⟩
  · rw [hlater.kept.child]
    exact h.child
  · rw [hkilled]
    exact h.killed
  · rw [hgroups]
    exact h.groups

theorem Spares.effect {q : Syscall} (h : Spares setting bystanders s) (heffect : Effect q s t)
    (hspawn : q ≠ .spawn) (hkill : ∀ pid, q = .killProcess pid → ¬bystanders pid)
    (hgroup : q ≠ .killGroup setting.callerGroup) : Spares setting bystanders t := by
  refine ⟨heffect.used _ h.caller, ?_, fun pid hpid => ?_, fun hmem => ?_⟩
  · rw [heffect.child hspawn]
    exact h.child
  · rcases heffect.killed pid hpid with hs | hq | ⟨-, hchild⟩
    · exact h.killed pid hs
    · exact hkill pid hq
    · exact h.child pid hchild
  · rcases heffect.groupsKilled _ hmem with hs | hq
    · exact h.groups hs
    · exact hgroup hq

/-- What holds while the scope is entered. -/
structure Held (setting : Setting) (bystanders : Pid → Prop) (baseline : Finset Int)
    (s : Machine) : Prop where
  kin : Kin setting baseline s
  spares : Spares setting bystanders s

theorem Held.later (h : Held setting bystanders baseline s) (hlater : Later setting s t) :
    Held setting bystanders baseline t := ⟨h.kin.later hlater, h.spares.later hlater⟩

/-- The calls that keep the scope. -/
def Syscall.Sparing (setting : Setting) (bystanders : Pid → Prop) : Syscall → Prop
  | .spawn | .setChildSubreaper _ | .readDir => False
  | .killProcess pid => ¬bystanders pid
  | .killGroup group => group ≠ setting.callerGroup
  | _ => True

theorem Held.effect {q : Syscall} (h : Held setting bystanders baseline s)
    (hq : q.Sparing setting bystanders) (heffect : Effect q s t) :
    Held setting bystanders baseline t := by
  have hspawn : q ≠ .spawn := by
    rintro rfl
    exact hq
  refine ⟨h.kin.effect heffect hspawn ?_, h.spares.effect heffect hspawn ?_ ?_⟩
  · rintro enabled rfl
    exact hq
  · rintro pid rfl
    exact hq
  · rintro rfl
    exact hq rfl

theorem asksSparing_contains {α : Type} {p : Supervising α}
    (h : Looping.AsksOnly (Syscall.Sparing setting bystanders) True p)
    (hs : Held setting bystanders baseline s) :
    Contains setting bystanders (fun _ t => Held setting bystanders baseline t) p s := by
  refine h.does (fun q a u t hq hu hworld => ?_) hs fun _ _ _ => trivial
  obtain ⟨⟨v, hlater, hanswer⟩, -⟩ := hworld
  have hlook : q ≠ .readDir := by
    rintro rfl
    exact hq
  have ht := (hu.later hlater).effect hq (answers_effect hlook hanswer)
  exact ⟨ht.spares, ht⟩

/-! ## The scan -/

/-- An invariant of the scan: nothing that goes on in between breaks it. -/
structure Steady (setting : Setting) (bystanders : Pid → Prop) (inv : Machine → Prop) : Prop where
  later : ∀ {s t}, inv s → Later setting s t → inv t
  spares : ∀ {s}, inv s → Spares setting bystanders s

/-- A call that leaves the machine alone. -/
theorem Steady.look {inv : Machine → Prop} (hinv : Steady setting bystanders inv) {q : Syscall}
    (hq : ∀ u a t, answers setting u q a t → t = u) (hs : inv s) :
    Contains setting bystanders (fun a t => inv t ∧ Later setting s t ∧ answers setting t q a t ∧
      ∀ pid proc, bystanders pid → t.procs pid = some proc → proc.group = setting.callerGroup)
      (call q) s := by
  refine Looping.does_call fun a t hworld => ?_
  obtain ⟨⟨u, hlater, hanswer⟩, hbeside⟩ := hworld
  cases hq u a t hanswer
  have ht := hinv.later hs hlater
  exact ⟨hinv.spares ht, ht, hlater, hanswer, hbeside⟩

/-- While a directory is listed, everything else goes on. -/
theorem Steady.list {inv : Machine → Prop} (hinv : Steady setting bystanders inv) (hs : inv s) :
    Contains setting bystanders (fun a t => ∃ u, inv u ∧ Later setting u t ∧
      answers setting u .readDir a t) (call .readDir) s := by
  refine Looping.does_call fun a t hworld => ?_
  obtain ⟨⟨u, hlater, hanswer⟩, -⟩ := hworld
  have hu := hinv.later hs hlater
  exact ⟨hinv.spares (hinv.later hu hanswer.1), u, hu, hanswer.1, hanswer⟩

/-- A number among the entries. -/
def Numbered (entries : List (Except IoError Bytes)) (raw : Int) : Prop :=
  ∃ name, Except.ok name ∈ entries ∧ (fromUtf8 name).bind parseI32 = some raw

theorem Numbered.cons {entries : List (Except IoError Bytes)} {raw : Int}
    (h : Numbered entries raw) (entry : Except IoError Bytes) : Numbered (entry :: entries) raw := by
  obtain ⟨name, hmem, hraw⟩ := h
  exact ⟨name, List.mem_cons_of_mem _ hmem, hraw⟩

theorem parse_entry {p : Pid} (hlt : p < 2 ^ 31) :
    (fromUtf8 (asBytes (digits p))).bind parseI32 = some (p : Int) := by
  rw [fromUtf8_eq_some_iff.mpr rfl, Option.bind_some, parseI32_digits hlt]

/-- What the scan has found: only numbers among the entries, and each child that stays. -/
structure Found (setting : Setting) (inv : Machine → Prop) (entries : List (Except IoError Bytes))
    (children result : Finset Int) : Prop where
  numbered : ∀ raw ∈ result, raw ∈ children ∨ Numbered entries raw
  stays : ∀ p : Pid, p < 2 ^ 31 → (∀ t, inv t → Stays setting p t) →
    (p : Int) ∈ children ∨ Except.ok (asBytes (digits p)) ∈ entries → (p : Int) ∈ result

/-- An entry that is passed over is not one of a child that stays. -/
theorem Found.skip {inv : Machine → Prop} {entries : List (Except IoError Bytes)}
    {children result : Finset Int} {entry : Except IoError Bytes}
    (h : Found setting inv entries children result)
    (hentry : ∀ p : Pid, p < 2 ^ 31 → (∀ t, inv t → Stays setting p t) →
      Except.ok (asBytes (digits p)) ≠ entry) :
    Found setting inv (entry :: entries) children result where
  numbered raw hraw := (h.numbered raw hraw).imp_right fun hn => hn.cons entry
  stays p hlt hp hmem := by
    refine h.stays p hlt hp (hmem.imp_right fun hentries => ?_)
    exact (List.mem_cons.mp hentries).resolve_left (hentry p hlt hp)

/-- An entry whose line was read: its number is entered if the line names the supervisor. -/
theorem Found.read {inv : Machine → Prop} {rest : List (Except IoError Bytes)}
    {children result : Finset Int} {name : Bytes} {raw parent : Int}
    (h : Found setting inv rest (if parent = setting.self then insert raw children else children)
      result)
    (hparse : (fromUtf8 name).bind parseI32 = some raw)
    (hchild : ∀ p : Pid, p < 2 ^ 31 → (∀ t, inv t → Stays setting p t) →
      asBytes (digits p) = name → parent = setting.self) :
    Found setting inv (.ok name :: rest) children result where
  numbered raw' hraw' := by
    rcases h.numbered raw' hraw' with hchildren | hn
    · split_ifs at hchildren with hself
      · rcases Finset.mem_insert.mp hchildren with rfl | hold
        · exact .inr ⟨name, List.mem_cons_self, hparse⟩
        · exact .inl hold
      · exact .inl hchildren
    · exact .inr (hn.cons _)
  stays p hlt hp hmem := by
    refine h.stays p hlt hp ?_
    rcases hmem with hold | hentries
    · refine .inl ?_
      split_ifs with hself
      · exact Finset.mem_insert_of_mem hold
      · exact hold
    · rcases List.mem_cons.mp hentries with hname | hrest
      · -- the entry of a child that stays, so the line names the supervisor
        cases hname
        rw [parse_entry hlt] at hparse
        cases hparse
        rw [if_pos (hchild p hlt hp rfl)]
        exact .inl (Finset.mem_insert_self _ _)
      · exact .inr hrest

theorem directChildrenFrom_contains {inv : Machine → Prop}
    (hinv : Steady setting bystanders inv) (entries : List (Except IoError Bytes))
    (children : Finset Int) (hs : inv s) :
    Contains setting bystanders
      (fun r t => inv t ∧ ∀ result, r = .ok result → Found setting inv entries children result)
      (directChildrenFrom setting.self entries children) s := by
  induction entries generalizing children s with
  | nil =>
    refine Looping.does_pure ⟨hs, fun result hresult => ?_⟩
    cases hresult
    exact ⟨fun _ h => .inl h, fun p _ _ h => h.resolve_right List.not_mem_nil⟩
  | cons entry rest ih =>
    cases entry with
    | error e =>
      unfold directChildrenFrom
      by_cases hgone : processEntryDisappeared e = true
      · rw [if_pos hgone]
        refine (ih children hs).mono fun r t ht => ⟨ht.1, fun result hresult => ?_⟩
        exact (ht.2 result hresult).skip fun _ _ _ h => (by cases h)
      · rw [if_neg hgone]
        exact Looping.does_pure ⟨hs, fun _ h => (by cases h)⟩
    | ok name =>
      unfold directChildrenFrom
      cases hparse : (fromUtf8 name).bind parseI32 with
      | none =>
        refine (ih children hs).mono fun r t ht => ⟨ht.1, fun result hresult => ?_⟩
        refine (ht.2 result hresult).skip fun p hlt _ h => ?_
        cases h
        rw [parse_entry hlt] at hparse
        cases hparse
      | some raw =>
        refine Looping.Does.bind (hinv.look (q := .readStat name)
          (fun _ _ _ h => h.1) hs) fun a t hlook => ?_
        obtain ⟨ht, -, ⟨-, hstat⟩, -⟩ := hlook
        cases a with
        | error e =>
          dsimp only
          by_cases hgone : processEntryDisappeared e = true
          · rw [if_pos hgone]
            refine (ih children ht).mono fun r u hu => ⟨hu.1, fun result hresult => ?_⟩
            refine (hu.2 result hresult).skip fun p _ hp h => ?_
            cases h
            obtain ⟨proc, hproc, -, -⟩ := hp t ht
            rw [(hstat p proc rfl hproc).2 e rfl] at hgone
            cases hgone
          · rw [if_neg hgone]
            exact Looping.does_pure ⟨ht, fun _ h => (by cases h)⟩
        | ok stat =>
          dsimp only
          cases hparent : parentOfStat stat with
          | error e => exact Looping.does_pure ⟨ht, fun _ h => (by cases h)⟩
          | ok parent =>
            refine (ih _ ht).mono fun r u hu => ⟨hu.1, fun result hresult => ?_⟩
            refine (hu.2 result hresult).read hparse fun p hlt hp hname => ?_
            cases hname
            obtain ⟨proc, hproc, -, hself⟩ := hp t ht
            obtain ⟨state, fields, hfields, rfl⟩ := (hstat p proc rfl hproc).1 stat rfl
            rw [parentOfStat_statText hfields (by rw [hself]; exact setting.self_lt)] at hparent
            cases hparent
            rw [hself]

theorem adopted_contains {inv : Machine → Prop} (hinv : Steady setting bystanders inv)
    (scope : SubreaperScope) (hscope : scope.callerGroup = setting.callerGroup)
    (children : List Int) (hs : inv s) :
    Contains setting bystanders
      (fun result t => inv t ∧ (∀ pid ∈ result, ¬bystanders pid) ∧
        ∀ p : Pid, 0 < p → (∀ t, inv t → ∃ proc, t.procs p = some proc ∧
          proc.group ≠ setting.callerGroup) → (p : Int) ∈ children → p ∈ result)
      (scope.adopted children) s := by
  induction children generalizing s with
  | nil =>
    exact Looping.does_pure ⟨hs, fun _ h => (by cases h), fun _ _ _ h => (by cases h)⟩
  | cons raw rest ih =>
    unfold SubreaperScope.adopted
    cases hraw : pidFromRaw raw with
    | none =>
      refine (ih hs).mono fun result t ht => ⟨ht.1, ht.2.1, fun p hpos hp hmem => ?_⟩
      refine ht.2.2 p hpos hp ((List.mem_cons.mp hmem).resolve_left ?_)
      rintro rfl
      rw [pidFromRaw, if_pos (Int.natCast_pos.mpr hpos)] at hraw
      cases hraw
    | some pid =>
      have hpid : ∀ p : Pid, 0 < p → (p : Int) = raw → p = pid := by
        rintro p hpos rfl
        rw [pidFromRaw, if_pos (Int.natCast_pos.mpr hpos)] at hraw
        exact (Option.some.inj hraw)
      refine Looping.Does.bind (hinv.look (q := .getpgid pid) (fun _ _ _ h => h.1) hs)
        fun a t hlook => ?_
      obtain ⟨ht, -, ⟨-, hgroup⟩, hbeside⟩ := hlook
      cases a with
      | error e =>
        refine (ih ht).mono fun result u hu => ⟨hu.1, hu.2.1, fun p hpos hp hmem => ?_⟩
        refine hu.2.2 p hpos hp ((List.mem_cons.mp hmem).resolve_left fun heq => ?_)
        -- a child that stays is in the table, and its group is known
        obtain ⟨proc, hproc, -⟩ := hp t ht
        rw [hpid p hpos heq] at hproc
        rcases hgroup with ⟨_, -, herror⟩ | ⟨hnone, -⟩
        · cases herror
        · rw [hnone] at hproc
          cases hproc
      | ok group =>
        have hok : ∃ proc, t.procs pid = some proc ∧ group = proc.group := by
          rcases hgroup with ⟨proc, hproc, heq⟩ | ⟨-, e, heq⟩
          · exact ⟨proc, hproc, Except.ok.inj heq⟩
          · cases heq
        obtain ⟨proc, hproc, heq⟩ := hok
        refine Looping.Does.bind (ih ht) fun others u hu => ?_
        obtain ⟨hu, hspared, hkept⟩ := hu
        by_cases hother : group ≠ scope.callerGroup
        · rw [if_pos hother]
          refine Looping.does_pure ⟨hu, fun q hq => ?_, fun p hpos hp hmem => ?_⟩
          · rcases List.mem_cons.mp hq with rfl | hq
            · intro hbystander
              exact hother (by rw [heq, hscope, hbeside q proc hbystander hproc])
            · exact hspared q hq
          · rcases List.mem_cons.mp hmem with hcons | hrest
            · rw [hpid p hpos hcons]
              exact List.mem_cons_self
            · exact List.mem_cons_of_mem _ (hkept p hpos hp hrest)
        · rw [if_neg hother]
          refine Looping.does_pure ⟨hu, hspared, fun p hpos hp hmem => ?_⟩
          refine hkept p hpos hp ((List.mem_cons.mp hmem).resolve_left fun hcons => ?_)
          obtain ⟨proc', hproc', hne⟩ := hp t ht
          rw [hpid p hpos hcons, hproc] at hproc'
          cases hproc'
          exact hother (by rw [heq, hscope]; exact hne)

/-- The scope is entered, and `p` is a descendant that stays, if it is one. -/
structure Watched (setting : Setting) (bystanders : Pid → Prop) (baseline : Finset Int)
    (p : Option Pid) (s : Machine) : Prop extends Held setting bystanders baseline s where
  clear : p = none → Clear s
  stays : ∀ q, p = some q → Stays setting q s

theorem watched_steady (p : Option Pid) :
    Steady setting bystanders (Watched setting bystanders baseline p) where
  later h hlater := ⟨h.toHeld.later hlater, fun hp => (h.clear hp).later hlater,
    fun q hq => (h.stays q hq).later h.kin hlater⟩
  spares h := h.spares

/-- The oldest descendant when the listing begins stays, and is listed. -/
theorem directChildren_contains (hs : Held setting bystanders baseline s) :
    Contains setting bystanders
      (fun r t => ∃ p, Watched setting bystanders baseline p t ∧
        ∀ result, r = .ok result → ∀ q, p = some q → (q : Int) ∈ result)
      (directChildren setting.self) s := by
  have hsteady : Steady setting bystanders (Held setting bystanders baseline) :=
    ⟨fun h hlater => h.later hlater, fun h => h.spares⟩
  refine Looping.Does.bind (hsteady.list hs) fun a t hlist => ?_
  obtain ⟨u, hu, hlater, -, hentries⟩ := hlist
  have hwatched : ∃ p, Watched setting bystanders baseline p u := by
    rcases hu.kin.clear_or_stays with hclear | ⟨q, hq⟩
    · exact ⟨none, hu, fun _ => hclear, fun _ h => (by cases h)⟩
    · refine ⟨some q, hu, fun h => (by cases h), fun _ h => ?_⟩
      cases h
      exact hq
  obtain ⟨p, hp⟩ := hwatched
  have ht := (watched_steady p).later hp hlater
  cases a with
  | error e => exact Looping.does_pure ⟨p, ht, fun _ h => (by cases h)⟩
  | ok entries =>
    refine (directChildrenFrom_contains (watched_steady p) entries ∅ ht).mono
      fun r v hv => ⟨p, hv.1, fun result hresult q hq => ?_⟩
    subst hq
    obtain ⟨before, hbefore, -⟩ := hp.stays q rfl
    obtain ⟨proc, hproc, hd, -⟩ := ht.stays q rfl
    refine (hv.2 result hresult).stays q (ht.kin.contained q proc hproc hd).lt
      (fun v hv => hv.stays q rfl) (.inr ?_)
    exact (hentries entries rfl).1 q (by rw [hbefore]; rfl) (by rw [hproc]; rfl)

/-! ## The end of the scope -/

/-- A pass that leaves the loop without an error has seen the last descendant gone. -/
theorem quiescencePass_contains (scope : SubreaperScope)
    (hscope : scope.callerGroup = setting.callerGroup) (deadline : Nat)
    (hs : Held setting bystanders scope.baseline s) :
    Contains setting bystanders
      (Looping.AfterPass (fun _ t => Held setting bystanders scope.baseline t)
        fun r t => Spares setting bystanders t ∧ (r = .ok () → Clear t))
      (scope.quiescencePass setting.self deadline ()) s := by
  refine Looping.Does.bind (directChildren_contains hs) fun a t ht => ?_
  obtain ⟨p, hp, hfound⟩ := ht
  cases a with
  | error e => exact Looping.does_pure ⟨hp.spares, fun h => (by cases h)⟩
  | ok children =>
  refine Looping.Does.bind (adopted_contains (watched_steady p) scope hscope _ hp)
    fun adopted u hu => ?_
  obtain ⟨hu, hspared, hkept⟩ := hu
  by_cases hnil : adopted = []
  · rw [if_pos hnil]
    refine Looping.does_pure ⟨hu.spares, fun _ => hu.clear ?_⟩
    cases p with
    | none => rfl
    | some q =>
      obtain ⟨proc, hproc, hd, -⟩ := hp.stays q rfl
      have hold : (q : Int) ∉ scope.baseline := fun hmem => by
        rw [(hp.kin.old q hmem).2 proc hproc] at hd
        cases hd
      have hmem := hkept q (hp.kin.contained q proc hproc hd).pos (fun v hv => by
        obtain ⟨r, hr, hrd, -⟩ := hv.stays q rfl
        exact ⟨r, hr, (hv.kin.contained q r hr hrd).group⟩)
        ((Finset.mem_sort _).mpr (Finset.mem_sdiff.mpr ⟨hfound children rfl q rfl, hold⟩))
      rw [hnil] at hmem
      cases hmem
  rw [if_neg hnil]
  refine Looping.Does.bind (asksSparing_contains
    (SubreaperScope.killAll_asks fun q hq => hspared q hq) hu.toHeld) fun _ v hv => ?_
  refine Looping.Does.bind (asksSparing_contains
    (SubreaperScope.waitAll_asks (fun _ => trivial) adopted) hv) fun a w hw => ?_
  cases a with
  | error e => exact Looping.does_pure ⟨hw.spares, fun h => (by cases h)⟩
  | ok _ =>
  refine Looping.Does.bind (asksSparing_contains (Looping.asksOnly_call (q := Syscall.now) trivial) hw)
    fun now x hx => ?_
  show Contains setting bystanders _ (if deadline ≤ now then _ else _) x
  by_cases hlate : deadline ≤ now
  · rw [if_pos hlate]
    exact Looping.does_pure ⟨hx.spares, fun h => (by cases h)⟩
  · rw [if_neg hlate]
    refine Looping.Does.bind (asksSparing_contains
      (Looping.asksOnly_call (q := Syscall.sleep) trivial) hx) fun _ y hy => ?_
    exact Looping.does_pure hy

theorem terminateAndReap_contains (scope : SubreaperScope)
    (hscope : scope.callerGroup = setting.callerGroup) (n : Nat)
    (hs : Held setting bystanders scope.baseline s) :
    Contains setting bystanders (fun r t => Spares setting bystanders t ∧ (r = .ok () → Clear t))
      (scope.terminateAndReap n setting.self) s := by
  refine Looping.Does.bind (asksSparing_contains (Looping.asksOnly_call (q := Syscall.now) trivial) hs)
    fun start t ht => ?_
  exact Looping.does_loop_of_inv
    (I := fun _ u => Held setting bystanders scope.baseline u)
    (fun _ u hu => quiescencePass_contains scope hscope _ hu) (fun _ _ _ => trivial) n ht

/-! ## The command in the scope -/

section
open Looping

variable {group : Pid}

theorem drain_asks (c : Capture) : AsksOnly (Syscall.Sparing setting bystanders) True c.drain := by
  have hpass : ∀ x, AsksOnly (Syscall.Sparing setting bystanders) True (Capture.drainPass x) := by
    intro x
    refine AsksOnly.bind (asksOnly_call (q := Syscall.read x.1.stream _) trivial) fun a => ?_
    cases a <;> dsimp only <;> split_ifs <;> exact asksOnly_pure _
  unfold Capture.drain
  split_ifs
  · exact asksOnly_pure _
  · exact asksOnly_pure _
  · exact asksOnly_loop hpass _ _

theorem writeInput_asks (w : InputWriter) (input : Bytes) :
    AsksOnly (Syscall.Sparing setting bystanders) True (w.writeInput input) := by
  have hpass : ∀ x, AsksOnly (Syscall.Sparing setting bystanders) True
      (InputWriter.writePass input x) := by
    intro x
    unfold InputWriter.writePass
    dsimp only
    split_ifs
    · refine AsksOnly.bind (asksOnly_call (q := Syscall.write _) trivial) fun a => ?_
      cases a <;> dsimp only <;> split_ifs <;> exact asksOnly_pure _
    · exact asksOnly_pure _
  unfold InputWriter.writeInput
  split_ifs
  · exact asksOnly_pure _
  · exact asksOnly_loop hpass _ _

theorem terminateTree_asks (hgroup : group ≠ setting.callerGroup) :
    AsksOnly (Syscall.Sparing setting bystanders) True (terminateTree group) := by
  refine AsksOnly.bind (asksOnly_call (q := Syscall.killGroup group) hgroup) fun _ => ?_
  refine AsksOnly.bind (asksOnly_call (q := Syscall.tryWait) trivial) fun a => ?_
  have hkill : AsksOnly (Syscall.Sparing setting bystanders) True
      (call .killChild >>= fun _ => pure ()) :=
    AsksOnly.bind (asksOnly_call (q := Syscall.killChild) trivial) fun _ => asksOnly_pure _
  cases a with
  | error e => exact hkill
  | ok status =>
    cases status with
    | none => exact hkill
    | some _ => exact asksOnly_pure _

theorem cancel_asks (hgroup : group ≠ setting.callerGroup) (n : Nat) (status : Option ExitStatus)
    (e : IoError) : AsksOnly (Syscall.Sparing setting bystanders) True
      (cancel n group status e) := by
  have hpass : ∀ deadline x, AsksOnly (Syscall.Sparing setting bystanders) True
      (reapPass deadline x) := by
    intro deadline x
    refine AsksOnly.bind (asksOnly_call (q := Syscall.tryWait) trivial) fun a => ?_
    cases a with
    | error e => exact asksOnly_pure _
    | ok status =>
      cases status with
      | some _ => exact asksOnly_pure _
      | none =>
        refine AsksOnly.bind (asksOnly_call (q := Syscall.now) trivial) fun now => ?_
        split_ifs
        · exact asksOnly_pure _
        · exact AsksOnly.bind (asksOnly_call (q := Syscall.sleep) trivial) fun _ => asksOnly_pure _
  refine AsksOnly.bind (terminateTree_asks hgroup) fun _ => ?_
  cases status with
  | some _ => exact asksOnly_pure _
  | none =>
    refine AsksOnly.bind (asksOnly_call (q := Syscall.now) trivial) fun start => ?_
    exact AsksOnly.bind (asksOnly_loop (hpass _) _ _) fun _ => asksOnly_pure _

theorem pass_asks (program : Text) (limits : OutputLimits) (input : Bytes) (x : Supervision) :
    AsksOnly (Syscall.Sparing setting bystanders) True (x.pass program limits input) := by
  have hrest : ∀ (x : Supervision) progressed, AsksOnly (Syscall.Sparing setting bystanders) True
      (x.rest progressed) := by
    intro x progressed
    unfold Supervision.rest
    split_ifs
    · exact asksOnly_pure _
    · exact AsksOnly.bind (asksOnly_call (q := Syscall.sleep) trivial) fun _ => asksOnly_pure _
  have hjudge : ∀ (x : Supervision) progressed, AsksOnly (Syscall.Sparing setting bystanders) True
      (x.judge program progressed) := by
    intro x progressed
    unfold Supervision.judge
    split_ifs
    · exact asksOnly_pure _
    · cases x.directExit with
      | none => exact hrest _ _
      | some started =>
        refine AsksOnly.bind (asksOnly_call (q := Syscall.now) trivial) fun now => ?_
        split_ifs
        · exact asksOnly_pure _
        · exact hrest _ _
  have hpoll : ∀ (x : Supervision) progressed, AsksOnly (Syscall.Sparing setting bystanders) True
      (x.pollStatus program progressed) := by
    intro x progressed
    unfold Supervision.pollStatus
    cases x.status with
    | some _ => exact hjudge _ _
    | none =>
      refine AsksOnly.bind (asksOnly_call (q := Syscall.tryWait) trivial) fun a => ?_
      cases statusPoll a program with
      | error e => exact asksOnly_pure _
      | ok status =>
        cases status with
        | none => exact hjudge _ _
        | some reaped =>
          exact AsksOnly.bind (asksOnly_call (q := Syscall.now) trivial) fun _ => hjudge _ _
  refine AsksOnly.bind (drain_asks x.stdout) fun r => ?_
  obtain ⟨drained, stdout⟩ := r
  cases drained with
  | error e => exact asksOnly_pure _
  | ok first =>
  refine AsksOnly.bind (drain_asks x.stderr) fun r => ?_
  obtain ⟨drained, stderr⟩ := r
  cases drained with
  | error e => exact asksOnly_pure _
  | ok second =>
  refine AsksOnly.bind (writeInput_asks x.stdin input) fun r => ?_
  obtain ⟨written, stdin⟩ := r
  cases written with
  | error e => exact asksOnly_pure _
  | ok third =>
  dsimp only
  cases (Supervision.exceededError program limits stdout).or
      (Supervision.exceededError program limits stderr) with
  | some e => exact asksOnly_pure _
  | none => exact hpoll _ _

theorem supervise_asks (hgroup : group ≠ setting.callerGroup) (n : Nat) (program : Text)
    (limits : OutputLimits) (input : Option Bytes) :
    AsksOnly (Syscall.Sparing setting bystanders) True
      (supervise n program limits input group) := by
  refine AsksOnly.bind (setNonblockingAll_asks (fun _ => trivial) _) fun a => ?_
  cases a with
  | error e => exact cancel_asks hgroup n none e
  | ok _ =>
  dsimp only
  cases captures limits with
  | error e => exact asksOnly_pure _
  | ok pair =>
  refine AsksOnly.bind (asksOnly_loop (pass_asks program limits _) n _) fun r => ?_
  obtain ⟨x, failure⟩ := r
  cases failure with
  | some e => exact cancel_asks hgroup n x.status e
  | none =>
    refine AsksOnly.bind (asksOnly_call (q := Syscall.killGroup group) hgroup) fun _ => ?_
    dsimp only
    cases x.status with
    | none => exact asksOnly_pure _
    | some _ => exact asksOnly_pure _

end

/-- The command is born into a group of its own, below the supervisor. -/
theorem outputInner_contains (n : Nat) (program : Text) (limits : OutputLimits)
    (input : Option Bytes) (hs : Held setting bystanders baseline s) :
    Contains setting bystanders (fun _ t => Held setting bystanders baseline t)
      (outputInner n program limits input) s := by
  refine Looping.does_call_bind (q := Syscall.spawn) fun a t hworld => ?_
  obtain ⟨⟨u, hlater, hanswer⟩, hbeside⟩ := hworld
  have hu := hs.later hlater
  rcases hanswer with ⟨pid, comm, rfl, hfresh, hpos, hlt, rfl⟩ | ⟨⟨e, rfl⟩, rfl⟩
  · have hgroup : pid ≠ setting.callerGroup := fun heq => hfresh (heq ▸ hu.spares.caller)
    have hborn := hu.kin.bear (p := ⟨comm, setting.self, pid, none, u.births, true⟩) hfresh hpos
      hlt rfl (fun _ => hgroup) fun _ => .inl ⟨hu.kin.subreaper, rfl⟩
    have hspares := hu.spares
    have hchild : ¬bystanders pid := fun hbystander => hgroup
      (hbeside pid ⟨comm, setting.self, pid, none, u.births, true⟩ hbystander
        (Machine.procs_setProc u pid _))
    have ht : Held setting bystanders baseline { u.setProc pid (some ⟨comm, setting.self, pid,
        none, u.births, true⟩) with
          used := fun q => u.used q ∨ q = pid, births := u.births + 1, child := some pid } :=
      ⟨hborn.of_procs_eq rfl rfl rfl rfl, .inl hspares.caller,
        fun q hq => Option.some.inj hq ▸ hchild, hspares.killed, hspares.groups⟩
    exact ⟨ht.spares, asksSparing_contains (supervise_asks hgroup n program limits input) ht⟩
  · exact ⟨hu.spares, Looping.does_pure hu⟩

/-- Before the command there is no descendant, and the children that are listed are old. -/
theorem measure_contains (wasEnabled : Bool) (hclear : Clear s)
    (hspares : Spares setting bystanders s) (hsub : s.subreaper = true) :
    Contains setting bystanders (fun r t => (Clear t ∧ Spares setting bystanders t) ∧
        ∀ scope, r = .ok scope → Held setting bystanders scope.baseline t ∧
          scope.callerGroup = setting.callerGroup)
      (SubreaperScope.measure setting.self wasEnabled) s := by
  have hsteady : ∀ u₀ : Machine, Steady setting bystanders fun u => Clear u ∧
      Spares setting bystanders u ∧ u.subreaper = true ∧ ∀ pid, u₀.used pid → u.used pid := by
    intro u₀
    refine ⟨fun h hlater => ?_, fun h => h.2.1⟩
    obtain ⟨hc, hs, hsub, hused⟩ := h
    obtain ⟨hmore, hsame, -⟩ := hlater.frame
    exact ⟨hc.later hlater, hs.later hlater, hsame.trans hsub, fun pid h => hmore pid (hused pid h)⟩
  have hlist : Contains setting bystanders (fun r t => (Clear t ∧ Spares setting bystanders t ∧
      t.subreaper = true) ∧ ∀ baseline, r = .ok baseline → ∀ pid : Pid, (pid : Int) ∈ baseline →
        t.used pid) (directChildren setting.self) s := by
    refine Looping.Does.bind ((hsteady s).list ⟨hclear, hspares, hsub, fun _ h => h⟩)
      fun a t hlist => ?_
    obtain ⟨u, hu, hlater, -, hentries⟩ := hlist
    obtain ⟨hc, hs, hsub, -⟩ := (hsteady s).later hu hlater
    cases a with
    | error e => exact Looping.does_pure ⟨⟨hc, hs, hsub⟩, fun _ h => (by cases h)⟩
    | ok entries =>
      refine (directChildrenFrom_contains (hsteady t) entries ∅ ⟨hc, hs, hsub, fun _ h => h⟩).mono
        fun r u hu => ?_
      obtain ⟨⟨hc, hs, hsub, hused⟩, hfound⟩ := hu
      refine ⟨⟨hc, hs, hsub⟩, fun baseline hbaseline pid hpid => ?_⟩
      rcases (hfound baseline hbaseline).numbered pid hpid with hnil | ⟨name, hname, hraw⟩
      · cases hnil
      · obtain ⟨pid', hused', heq⟩ := (hentries entries rfl).2 name pid hname hraw
        rw [Int.ofNat_inj.mp heq]
        exact hused pid' hused'
  refine Looping.Does.bind hlist fun r t ht => ?_
  obtain ⟨⟨hc, hs, hsub⟩, hused⟩ := ht
  cases r with
  | error e => exact Looping.does_pure ⟨⟨hc, hs⟩, fun _ h => (by cases h)⟩
  | ok baseline =>
  refine Looping.Does.bind ((hsteady t).look (q := .ownGroup) (fun _ _ _ h => h.1)
    ⟨hc, hs, hsub, fun _ h => h⟩) fun a u hlook => ?_
  obtain ⟨⟨hc, hs, hsub, hmore⟩, -, ⟨-, hgroup⟩, -⟩ := hlook
  cases a with
  | error e => exact Looping.does_pure ⟨⟨hc, hs⟩, fun _ h => (by cases h)⟩
  | ok group =>
    refine Looping.does_pure ⟨⟨hc, hs⟩, fun scope h => ?_⟩
    cases h
    refine ⟨⟨⟨hsub, fun pid hpid => ⟨hmore pid (hused baseline rfl pid hpid), hc pid⟩,
      fun pid proc hproc hd => ?_⟩, hs⟩, hgroup group rfl⟩
    rw [hc pid proc hproc] at hd
    cases hd

theorem enter_contains (hclear : Clear s) (hspares : Spares setting bystanders s) :
    Contains setting bystanders (fun r t => (Clear t ∧ Spares setting bystanders t) ∧
        ∀ scope, r = .ok scope → Held setting bystanders scope.baseline t ∧
          scope.callerGroup = setting.callerGroup)
      (SubreaperScope.enter setting.self) s := by
  have hsteady : Steady setting bystanders fun u => Clear u ∧ Spares setting bystanders u :=
    ⟨fun h hlater => ⟨h.1.later hlater, h.2.later hlater⟩, fun h => h.2⟩
  refine Looping.Does.bind (hsteady.look (q := .childSubreaper) (fun _ _ _ h => h.1)
    ⟨hclear, hspares⟩) fun a t hlook => ?_
  obtain ⟨⟨hc, hs⟩, -, ⟨-, henabled⟩, -⟩ := hlook
  cases a with
  | error e => exact Looping.does_pure ⟨⟨hc, hs⟩, fun _ h => (by cases h)⟩
  | ok enabled =>
  cases enabled with
  | true => exact measure_contains true hc hs (henabled true rfl).symm
  | false =>
    refine Looping.does_call_bind (q := Syscall.setChildSubreaper true) fun a u hworld => ?_
    obtain ⟨⟨v, hlater, hanswer⟩, -⟩ := hworld
    have hcv := hc.later hlater
    have hsv := hs.later hlater
    rcases hanswer with ⟨rfl, rfl⟩ | ⟨⟨e, rfl⟩, rfl⟩
    · have hsu : Spares setting bystanders { v with subreaper := true } :=
        ⟨hsv.caller, hsv.child, hsv.killed, hsv.groups⟩
      exact ⟨hsu, measure_contains false hcv hsu rfl⟩
    · exact ⟨hsv, Looping.does_pure ⟨⟨hcv, hsv⟩, fun _ h => (by cases h)⟩⟩

theorem drop_contains (scope : SubreaperScope) (hspares : Spares setting bystanders s) :
    Contains setting bystanders (fun _ t => Spares setting bystanders t ∧ (Clear s → Clear t))
      scope.drop s := by
  unfold SubreaperScope.drop
  cases scope.wasEnabled with
  | true => exact Looping.does_pure ⟨hspares, id⟩
  | false =>
    refine Looping.does_call_bind (q := Syscall.setChildSubreaper false) fun a t hworld => ?_
    obtain ⟨⟨u, hlater, hanswer⟩, -⟩ := hworld
    have heffect := answers_effect (by simp) hanswer
    have ht := (hspares.later hlater).effect heffect (by simp) (fun _ h => (by cases h))
      (fun h => by cases h)
    exact ⟨ht, Looping.does_pure ⟨ht, fun hc => (hc.later hlater).effect heffect (by simp)⟩⟩

/-! ## Results -/

/-- No descendant of a command is there before it, and nothing was signalled. -/
structure Prepared (setting : Setting) (s : Machine) : Prop where
  clear : Clear s
  caller : s.used setting.callerGroup
  killed : s.killed = []
  groupsKilled : s.groupsKilled = []

theorem Prepared.spares (h : Prepared setting s) (hchild : ∀ pid, s.child = some pid →
    ¬bystanders pid) : Spares setting bystanders s := by
  refine ⟨h.caller, hchild, ?_, ?_⟩
  · rw [h.killed]
    exact fun _ hmem => (by cases hmem)
  · rw [h.groupsKilled]
    exact List.not_mem_nil

theorem output_contains (n : Nat) (program : Text) (limits : OutputLimits)
    (input : Option Bytes) (h : Prepared setting s)
    (hchild : ∀ pid, s.child = some pid → ¬bystanders pid) :
    Contains setting bystanders (fun r t => ∀ result, r = .ok result → Clear t)
      (output n setting.self program limits input) s := by
  unfold output
  cases validateLimits limits input with
  | error e => exact Looping.does_pure fun _ h => (by cases h)
  | ok _ =>
  refine Looping.Does.bind (enter_contains h.clear (h.spares hchild)) fun a t ht => ?_
  cases a with
  | error e => exact Looping.does_pure fun _ h => (by cases h)
  | ok scope =>
  obtain ⟨hheld, hscope⟩ := ht.2 scope rfl
  refine Looping.Does.bind (outputInner_contains n program limits input hheld) fun r u hu => ?_
  refine Looping.Does.bind (terminateAndReap_contains scope hscope n hu) fun cleanup v hv => ?_
  obtain ⟨hspares, hclear⟩ := hv
  refine Looping.Does.bind (drop_contains scope hspares) fun _ w hw => ?_
  refine Looping.does_pure fun result hresult => hw.2 (hclear ?_)
  cases cleanup with
  | ok _ => rfl
  | error e => cases r <;> cases hresult

theorem worldBeside_none (setting : Setting) :
    worldBeside setting (fun _ => False) = world setting := by
  funext q s a t
  simp [worldBeside]

/-- However the descendants of a command fork, exit, rename themselves, leave their group or
adopt one another: when the supervisor reports a success none of them is left in the table of
processes, not even as a zombie. -/
theorem output_leaves_no_descendant (n : Nat) (setting : Setting) (program : Text)
    (limits : OutputLimits) (input : Option Bytes) (s : Machine) (h : Prepared setting s) :
    Looping.Does (world setting) (fun _ _ => True) (fun _ => True)
      (fun result t => ∀ output, result = .ok output → Clear t)
      (output n setting.self program limits input) s := by
  rw [← worldBeside_none]
  exact (output_contains n program limits input h fun _ _ => not_false).weaken fun _ _ _ => trivial

/-- The supervisor, alone in its group. -/
def callerMachine : Machine :=
  { bareMachine with
    procs := fun pid => if pid = 7 then some ⟨"xtask".toList, 1, 7, none, 0, false⟩ else none
    used := fun pid => pid ≤ 7
    births := 1 }

theorem prepared_callerMachine : Prepared ⟨7, 7, by decide⟩ callerMachine where
  clear pid proc h := by
    simp only [callerMachine] at h
    split_ifs at h
    cases h
    rfl
  caller := Nat.le_refl 7
  killed := rfl
  groupsKilled := rfl

theorem output_leaves_no_descendant_callerMachine :
    Looping.Does (world ⟨7, 7, by decide⟩) (fun _ _ => True) (fun _ => True)
      (fun result t => ∀ output, result = .ok output → Clear t)
      (output 500 7 "cargo".toList validationOutputLimits none) callerMachine :=
  output_leaves_no_descendant 500 ⟨7, 7, by decide⟩ "cargo".toList validationOutputLimits none
    callerMachine prepared_callerMachine

/-- Processes that are in the group of the caller all the time, such as the children of
concurrent callers, are never signalled, nor is that group, at any moment of any run.  The
command itself, which is signalled when it has to be, is not one of them. -/
theorem output_spares_bystanders (n : Nat) (setting : Setting) (bystanders : Pid → Prop)
    (program : Text) (limits : OutputLimits) (input : Option Bytes) (s : Machine)
    (h : Prepared setting s) (hchild : s.child = none) :
    Looping.Does (worldBeside setting bystanders)
      (fun _ t => (∀ pid ∈ t.killed, ¬bystanders pid) ∧ setting.callerGroup ∉ t.groupsKilled)
      (fun _ => True) (fun _ _ => True) (output n setting.self program limits input) s := by
  have hnone : ∀ pid, s.child = some pid → ¬bystanders pid := by
    rw [hchild]
    exact fun _ h => (by cases h)
  have hcontains := output_contains n program limits input h hnone
  exact Looping.Does.mono (hcontains.weaken fun _ _ ht => ⟨ht.killed, ht.groups⟩)
    fun _ _ _ => trivial

/-- The supervisor, and a compiler that another thread of it has started. -/
def sharedMachine : Machine :=
  { callerMachine with
    procs := fun pid =>
      if pid = 8 then some ⟨"rustc".toList, 7, 7, none, 1, false⟩ else callerMachine.procs pid
    used := fun pid => pid ≤ 8
    births := 2 }

theorem prepared_sharedMachine : Prepared ⟨7, 7, by decide⟩ sharedMachine where
  clear pid proc h := by
    simp only [sharedMachine] at h
    split_ifs at h with hpid
    · cases h
      rfl
    · exact prepared_callerMachine.clear pid proc h
  caller := Nat.le_succ 7
  killed := rfl
  groupsKilled := rfl

theorem output_spares_bystanders_sharedMachine :
    Looping.Does (worldBeside ⟨7, 7, by decide⟩ (· = 8))
      (fun _ t => (∀ pid ∈ t.killed, pid ≠ 8) ∧ 7 ∉ t.groupsKilled)
      (fun _ => True) (fun _ _ => True) (output 500 7 "cargo".toList validationOutputLimits none)
      sharedMachine :=
  output_spares_bystanders 500 ⟨7, 7, by decide⟩ (· = 8) "cargo".toList validationOutputLimits none
    sharedMachine prepared_sharedMachine rfl

end Tooling
end YamlSigil
