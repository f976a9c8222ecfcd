import TaskWatch.Api.Client
import TaskWatch.Monitor.Service
import TaskWatch.Proofs.Results
import TaskWatch.Watch.Settings

/-!
# Settings in layers

Where the command line, the environment and the settings from before all have something to say, the
first of them that speaks is heard.

* `Variable.Gives`: what a variable makes of a number.
* `Monitor.Settings.overriddenBy_eq_ok_iff`, `Settings.withArguments_eq_ok_iff`: the two passes,
  each by itself.
* `Settings.Layered`: each part of some settings comes from the first source that gives it.
* `Settings.overriddenBy_layered`: these are the settings that come out, and nothing that is started
  with them finds fault with them.
-/

namespace TaskWatch

/-! ## The environment -/

namespace Config.Variable

open Decimal
open Text

/-- What a variable makes of a number: the one that its value stands for in decimal digits, up to
the blanks around it, or the number as it was when the variable is not set. -/
def Gives (v : Variable) (env : Environment) (before now : UInt64) : Prop :=
  match env v.name with
  | none => now = before
  | some value => Denotes (trim value).toList now.toNat

theorem read_gives {v : Variable} {env : Environment} {before now : UInt64} :
    (∃ n, v.read env = .ok n ∧ n.getD before = now) ↔ v.Gives env before now := by
  unfold read Gives
  cases env v.name with
  | none =>
    constructor
    · rintro ⟨n, hn, rfl⟩
      obtain rfl := Except.ok.inj hn
      rfl
    · rintro rfl
      exact ⟨none, rfl, rfl⟩
  | some value =>
    show _ ↔ Denotes (trim value).toList now.toNat
    rw [← readUInt64_eq_ok_iff]
    constructor
    · rintro ⟨n, hn, rfl⟩
      obtain ⟨number, hnumber, rfl⟩ := map_eq_ok_iff.mp hn
      exact hnumber
    · intro hnow
      exact ⟨some now, map_eq_ok_iff.mpr ⟨now, hnow, rfl⟩, rfl⟩

end Config.Variable

namespace Monitor.Settings

open Config

theorem checked_eq_ok_iff {s c : Settings} : s.checked = .ok c ↔ s = c ∧ s.pollDelayMs ≠ 0 := by
  rw [checked, map_eq_ok_iff, ← check_eq_ok_iff]
  constructor
  · rintro ⟨u, hu, rfl⟩
    exact ⟨rfl, mapError_eq_ok_iff.mp hu⟩
  · rintro ⟨rfl, hs⟩
    exact ⟨(), mapError_eq_ok_iff.mpr hs, rfl⟩

/-- The environment gives both numbers, and must leave a delay. -/
theorem overriddenBy_eq_ok_iff {env : Environment} {s c : Settings} :
    s.overriddenBy env = .ok c ↔
      Variable.pollDelayMs.Gives env s.pollDelayMs c.pollDelayMs ∧
      Variable.maxThreads.Gives env s.maxThreads c.maxThreads ∧ c.pollDelayMs ≠ 0 := by
  rw [← Variable.read_gives, ← Variable.read_gives, overriddenBy, bind_eq_ok_iff]
  constructor
  · rintro ⟨delay, hdelay, h⟩
    obtain ⟨threads, hthreads, h⟩ := bind_eq_ok_iff.mp h
    obtain ⟨rfl, hne⟩ := checked_eq_ok_iff.mp h
    exact ⟨⟨delay, mapError_eq_ok_iff.mp hdelay, rfl⟩,
      ⟨threads, mapError_eq_ok_iff.mp hthreads, rfl⟩, hne⟩
  · rintro ⟨⟨delay, hdelay, hd⟩, ⟨threads, hthreads, ht⟩, hne⟩
    refine ⟨delay, mapError_eq_ok_iff.mpr hdelay, bind_eq_ok_iff.mpr ⟨threads, ?_, ?_⟩⟩
    · exact mapError_eq_ok_iff.mpr hthreads
    · rw [hd, ht]
      exact checked_eq_ok_iff.mpr ⟨rfl, hne⟩

end Monitor.Settings

namespace Watch.Settings

open Config

variable {env : Environment} {a : Arguments} {s c : Settings}

/-! ## The command line -/

/-- What the command line makes of the format of the log. -/
def GivesFormat (a : Arguments) (before now : LogFormat) : Prop :=
  match a.logFormat with
  | none => now = before
  | some name => LogFormat.ofName? name = some now

theorem formatOf_gives {before now : LogFormat} :
    (∃ f, formatOf a.logFormat = .ok f ∧ f.getD before = now) ↔ GivesFormat a before now := by
  unfold formatOf GivesFormat
  cases a.logFormat with
  | none => simp [eq_comm]
  | some name => cases hname : LogFormat.ofName? name <;> simp [hname]

theorem check_eq_ok_iff : s.check = .ok () ↔ s.api.check = .ok () ∧ s.monitor.check = .ok () := by
  unfold check
  rw [bind_eq_ok_iff]
  constructor
  · rintro ⟨u, hapi, hmonitor⟩
    exact ⟨mapError_eq_ok_iff.mp hapi, mapError_eq_ok_iff.mp hmonitor⟩
  · rintro ⟨hapi, hmonitor⟩
    exact ⟨(), mapError_eq_ok_iff.mpr hapi, mapError_eq_ok_iff.mpr hmonitor⟩

/-- The command line gives what it says, and must leave settings that are acceptable. -/
theorem withArguments_eq_ok_iff :
    withArguments a s = .ok c ↔
      c.api = { s.api with
        endpoint := a.endpoint.getD s.api.endpoint
        username := a.user.getD s.api.username
        password := a.password.getD s.api.password } ∧
      c.monitor = { s.monitor with pollDelayMs := a.delayMs.getD s.monitor.pollDelayMs } ∧
      c.logging.level = a.logLevel.getD s.logging.level ∧
      GivesFormat a s.logging.format c.logging.format ∧ c.check = .ok () := by
  rw [← formatOf_gives, withArguments, bind_eq_ok_iff]
  constructor
  · rintro ⟨f, hf, h⟩
    obtain ⟨u, hcheck, h⟩ := bind_eq_ok_iff.mp h
    obtain rfl := Except.ok.inj h
    exact ⟨rfl, rfl, rfl, ⟨f, hf, rfl⟩, hcheck⟩
  · obtain ⟨api, monitor, level, format⟩ := c
    rintro ⟨rfl, rfl, rfl, ⟨f, hf, rfl⟩, hcheck⟩
    exact ⟨f, hf, bind_eq_ok_iff.mpr ⟨(), hcheck, rfl⟩⟩

/-! ## All layers -/

/-- Each part of the settings `c` comes from the first source that gives it: the command line, the
environment, or the settings `s` from before. -/
structure Layered (env : Environment) (a : Arguments) (s c : Settings) : Prop where
  endpoint : c.api.endpoint = a.endpoint.getD s.api.endpoint
  username : c.api.username = a.user.getD s.api.username
  password : c.api.password = a.password.getD s.api.password
  timeout : c.api.timeoutSecs = s.api.timeoutSecs
  delayGiven : ∀ n, a.delayMs = some n → c.monitor.pollDelayMs = n
  delay : a.delayMs = none →
    Variable.pollDelayMs.Gives env s.monitor.pollDelayMs c.monitor.pollDelayMs
  threads : Variable.maxThreads.Gives env s.monitor.maxThreads c.monitor.maxThreads
  level : c.logging.level = a.logLevel.getD s.logging.level
  format : GivesFormat a s.logging.format c.logging.format

/-- Settings come out exactly when they are layered and acceptable, and the environment leaves a
delay, even if the command line gives another one. -/
theorem overriddenBy_eq_ok_iff :
    s.overriddenBy env a = .ok c ↔ Layered env a s c ∧ c.check = .ok () ∧
      ∃ delay, Variable.pollDelayMs.Gives env s.monitor.pollDelayMs delay ∧ delay ≠ 0 := by
  rw [overriddenBy, bind_eq_ok_iff]
  constructor
  · rintro ⟨m, hm, h⟩
    obtain ⟨hdelay, hthreads, hne⟩ := Monitor.Settings.overriddenBy_eq_ok_iff.mp hm
    obtain ⟨hapi, hmonitor, hlevel, hformat, hcheck⟩ := withArguments_eq_ok_iff.mp h
    refine ⟨?_, hcheck, m.pollDelayMs, hdelay, hne⟩
    exact {
      endpoint := by rw [hapi]
      username := by rw [hapi]
      password := by rw [hapi]
      timeout := by rw [hapi]
      delayGiven := fun n hn => by rw [hmonitor, hn]; rfl
      delay := fun hn => by rw [hmonitor, hn]; exact hdelay
      threads := by rw [hmonitor]; exact hthreads
      level := hlevel
      format := hformat }
  · rintro ⟨h, hcheck, delay, hdelay, hne⟩
    have happly : ∀ m : Monitor.Settings, s.monitor.overriddenBy env = .ok m →
        c.monitor = { m with pollDelayMs := a.delayMs.getD m.pollDelayMs } →
        ∃ m, s.monitor.overriddenBy env = .ok m ∧
          withArguments a { s with monitor := m } = .ok c := by
      intro m hm hc
      refine ⟨m, hm, withArguments_eq_ok_iff.mpr ⟨?_, hc, h.level, h.format, hcheck⟩⟩
      show c.api = ⟨_, _, _, s.api.timeoutSecs⟩
      rw [← h.endpoint, ← h.username, ← h.password, ← h.timeout]
    cases hn : a.delayMs with
    | none =>
      have hdelay := h.delay hn
      have hne := Monitor.Settings.check_eq_ok_iff.mp (check_eq_ok_iff.mp hcheck).2
      refine happly c.monitor ?_ (by rw [hn]; rfl)
      exact Monitor.Settings.overriddenBy_eq_ok_iff.mpr ⟨hdelay, h.threads, hne⟩
    | some n =>
      -- The delay of the environment is lost, but not without having been looked at.
      refine happly ⟨delay, c.monitor.maxThreads⟩ ?_ (by rw [hn, ← h.delayGiven n hn]; rfl)
      exact Monitor.Settings.overriddenBy_eq_ok_iff.mpr ⟨hdelay, h.threads, hne⟩

/-- **Settings are layered.**  Whatever the settings from before, the environment and the command
line are: those settings come out of which each part comes from the first source that gives it,
where a number of the environment is the one that stands there, if they are acceptable in all parts
and the environment leaves a delay; else none do.  A client and a service can be started with what
comes out. -/
theorem overriddenBy_layered :
    (s.overriddenBy env a = .ok c ↔ Layered env a s c ∧ c.check = .ok () ∧
      ∃ delay, Variable.pollDelayMs.Gives env s.monitor.pollDelayMs delay ∧ delay ≠ 0) ∧
    (s.overriddenBy env a = .ok c →
      (∃ client, Api.Client.connect c.api = .ok client) ∧
      ∀ ι : Type, ∃ service : Monitor.Service ι,
        Monitor.Service.start c.monitor = .ok service) := by
  refine ⟨overriddenBy_eq_ok_iff, fun h => ?_⟩
  obtain ⟨-, hcheck, -⟩ := overriddenBy_eq_ok_iff.mp h
  obtain ⟨hapi, hmonitor⟩ := check_eq_ok_iff.mp hcheck
  refine ⟨⟨_, bind_eq_ok_iff.mpr ⟨(), hapi, rfl⟩⟩, fun ι => ?_⟩
  exact ⟨_, bind_eq_ok_iff.mpr ⟨(), hmonitor, rfl⟩⟩

def busyEnvironment : Environment := fun name =>
  if name = Variable.pollDelayMs.name then some "\t250 "
  else if name = Variable.maxThreads.name then some "+007"
  else none

def farAway : Arguments :=
  { Arguments.empty with
    endpoint := "https://abiquo.example.com/api"
    logFormat := "JSON"
    tasks := ["tasks/1"] }

/-- The numbers come from the environment, and the address and the format from the command line. -/
theorem layers_far_away :
    ∃ c, standard.overriddenBy busyEnvironment farAway = .ok c ∧
      c = ⟨⟨"https://abiquo.example.com/api", "admin", "", 30⟩, ⟨250, 7⟩, ⟨"info", .json⟩⟩ ∧
      Layered busyEnvironment farAway standard c ∧
      ∃ client, Api.Client.connect c.api = .ok client := by
  have h : standard.overriddenBy busyEnvironment farAway =
      .ok ⟨⟨"https://abiquo.example.com/api", "admin", "", 30⟩, ⟨250, 7⟩, ⟨"info", .json⟩⟩ := by
    rfl
  obtain ⟨hlayers, hstarts⟩ := overriddenBy_layered (s := standard) (a := farAway)
  exact ⟨_, h, rfl, (hlayers.mp h).1, (hstarts h).1⟩

end Watch.Settings
end TaskWatch
