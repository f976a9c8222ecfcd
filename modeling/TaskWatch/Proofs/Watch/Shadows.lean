import TaskWatch.Proofs.Watch.Layers

/-!
# What the command line shadows

Settings need not be acceptable before all layers have been put over them: a bad address or account
is made up for by the command line, and a missing delay by the environment.  Only the delay that the
environment leaves is looked at before the command line takes its place.

* `Monitor.Settings.delayLeft`: that delay.  `overriddenBy_of_fault`, `overriddenBy_of_zero`: what a
  bad one comes to.
* `Settings.shadowed_delay_decides`: it is all that can keep good settings from coming out.
* `Settings.hidden_zero_refused`: it does so even though nobody asked for it.
-/

namespace TaskWatch

namespace Monitor.Settings

open Config

variable {env : Environment} {s : Settings}

def noDelay : Error := .invalidConfig "poll_delay_ms must be greater than 0"

theorem check_of_zero (h : s.pollDelayMs = 0) : s.check = .error noDelay := if_pos h

def delayLeft (env : Environment) (s : Settings) : Except Decimal.NumberFault UInt64 :=
  (Variable.pollDelayMs.read env).map (·.getD s.pollDelayMs)

theorem delayLeft_eq_ok_iff {delay : UInt64} :
    s.delayLeft env = .ok delay ↔ Variable.pollDelayMs.Gives env s.pollDelayMs delay := by
  rw [delayLeft, map_eq_ok_iff, Variable.read_gives]

/-- A delay that is no number is the first fault. -/
theorem overriddenBy_of_fault {fault : Decimal.NumberFault} (h : s.delayLeft env = .error fault) :
    s.overriddenBy env = .error (.badVariable .pollDelayMs fault) := by
  have hread : Variable.pollDelayMs.read env = .error fault := map_eq_error_iff.mp h
  rw [overriddenBy, bind_eq_error_iff]
  exact .inl (mapError_eq_error_iff.mpr ⟨fault, hread, rfl⟩)

/-- No delay is a fault when the number of threads is none. -/
theorem overriddenBy_of_zero {threads : UInt64} (h : s.delayLeft env = .ok 0)
    (ht : Variable.maxThreads.Gives env s.maxThreads threads) :
    s.overriddenBy env = .error (.monitor noDelay) := by
  obtain ⟨delay, hdelay, hzero⟩ := map_eq_ok_iff.mp h
  obtain ⟨n, hn, -⟩ := Variable.read_gives.mpr ht
  rw [overriddenBy, bind_eq_error_iff]
  refine .inr ⟨delay, mapError_eq_ok_iff.mpr hdelay, ?_⟩
  rw [bind_eq_error_iff]
  refine .inr ⟨n, mapError_eq_ok_iff.mpr hn, ?_⟩
  rw [checked, map_eq_error_iff, mapError_eq_error_iff]
  exact ⟨noDelay, check_of_zero hzero, rfl⟩

end Monitor.Settings

namespace Watch.Settings

open Config

variable {env : Environment} {a : Arguments} {s c : Settings}

theorem overriddenBy_of_monitor {e : Config.Error} (h : s.monitor.overriddenBy env = .error e) :
    s.overriddenBy env a = .error e := by
  rw [overriddenBy, bind_eq_error_iff]
  exact .inl h

/-- **Shadowed values do not count, but for a delay.**  Let `c` be the settings of which each part
comes from the first source that gives it, and let them be acceptable.  What comes out is told by
`c` and by the delay that the environment leaves, whatever else is shadowed: `c` comes out if that
is a delay, else its own fault does.  It is the delay of `c`, and so one, unless the command line
has another one; then it need not be one, and `c` comes out exactly if it is. -/
theorem shadowed_delay_decides (h : Layered env a s c) (hc : c.check = .ok ()) :
    s.overriddenBy env a =
      (match s.monitor.delayLeft env with
        | .error fault => .error (.badVariable .pollDelayMs fault)
        | .ok delay => if delay = 0 then .error (.monitor Monitor.Settings.noDelay) else .ok c) ∧
    (a.delayMs = none → s.overriddenBy env a = .ok c) ∧
    ∀ n, a.delayMs = some n → (s.overriddenBy env a = .ok c ↔
      ∃ delay, Variable.pollDelayMs.Gives env s.monitor.pollDelayMs delay ∧ delay ≠ 0) := by
  have hout : ∀ delay, Variable.pollDelayMs.Gives env s.monitor.pollDelayMs delay → delay ≠ 0 →
      s.overriddenBy env a = .ok c := fun delay hdelay hne =>
    overriddenBy_eq_ok_iff.mpr ⟨h, hc, delay, hdelay, hne⟩
  refine ⟨?_, fun hnone => ?_, fun n _ => ⟨fun hok => ?_, fun ⟨delay, hdelay, hne⟩ => ?_⟩⟩
  · cases hleft : s.monitor.delayLeft env with
    | error fault => exact overriddenBy_of_monitor (Monitor.Settings.overriddenBy_of_fault hleft)
    | ok delay =>
      by_cases hzero : delay = 0
      · rw [hzero] at hleft
        simp only [hzero, if_true]
        exact overriddenBy_of_monitor (Monitor.Settings.overriddenBy_of_zero hleft h.threads)
      · simp only [hzero, if_false]
        exact hout delay (Monitor.Settings.delayLeft_eq_ok_iff.mp hleft) hzero
  · have hmonitor := (check_eq_ok_iff.mp hc).2
    exact hout _ (h.delay hnone) (Monitor.Settings.check_eq_ok_iff.mp hmonitor)
  · exact (overriddenBy_eq_ok_iff.mp hok).2.2
  · exact hout delay hdelay hne

/-- Settings that are good for nothing by themselves. -/
def unusable : Settings := ⟨⟨"nowhere", "", "", 30⟩, ⟨0, 0⟩, .standard⟩

def remedy : Arguments :=
  { Arguments.empty with
    endpoint := "https://abiquo.example.com/api"
    user := "ops"
    delayMs := some 9
    tasks := ["tasks/1"] }

/-- What is missing is made up for when the environment has a delay. -/
theorem remedy_with_busy_environment :
    unusable.overriddenBy busyEnvironment remedy =
      .ok ⟨⟨"https://abiquo.example.com/api", "ops", "", 30⟩, ⟨9, 7⟩, .standard⟩ := by
  have hthreads : Variable.maxThreads.Gives busyEnvironment 0 7 :=
    Variable.read_gives.mp ⟨_, rfl, rfl⟩
  have hlayers : Layered busyEnvironment remedy unusable
      ⟨⟨"https://abiquo.example.com/api", "ops", "", 30⟩, ⟨9, 7⟩, .standard⟩ :=
    ⟨rfl, rfl, rfl, rfl, fun n hn => Option.some.inj hn, fun hn => (Option.some_ne_none _ hn).elim,
      hthreads, rfl, rfl⟩
  obtain ⟨-, -, hgiven⟩ := shadowed_delay_decides hlayers rfl
  exact (hgiven 9 rfl).mpr ⟨250, Variable.read_gives.mp ⟨_, rfl, rfl⟩, by decide⟩

/-- The same settings are refused where the environment has none: the command line gives a delay,
and is told that there is none. -/
theorem hidden_zero_refused :
    let s : Settings := { standard with monitor := ⟨0, 10⟩ }
    let a : Arguments := { Arguments.empty with delayMs := some 9, tasks := ["t"] }
    let c : Settings := { standard with monitor := ⟨9, 10⟩ }
    Layered (fun _ => none) a s c ∧ c.check = .ok () ∧ s.overriddenBy (fun _ => none) a ≠ .ok c ∧
      s.overriddenBy (fun _ => none) a = .error (.monitor Monitor.Settings.noDelay) ∧
      withArguments a s = .ok c := by
  refine ⟨⟨rfl, rfl, rfl, rfl, fun n hn => Option.some.inj hn, fun hn => ?_, rfl, rfl, rfl⟩, rfl,
    ?_, rfl, rfl⟩
  · cases hn
  · intro h
    cases h

end Watch.Settings
end TaskWatch
