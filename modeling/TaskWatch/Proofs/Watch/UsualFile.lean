import TaskWatch.Proofs.Online.Exchange
import TaskWatch.Proofs.Watch.Layers
import TaskWatch.Watch.Program

/-!
# The usual file

When no file with settings is named, the usual one is tried.  It counts only if settings can be read
from it.  Otherwise the program goes on as if there were no file at all, where it would have failed
if the same file had been named.

* `Arguments.parse_naming`: naming the file in front of a command line changes nothing else of it.
* `ofFile_load`, `ofFile_overriddenBy`, `ofRun_ne_config`: what goes wrong with a file can be told
  from all that goes wrong later.
* `program_usual_file`: the program with the usual file, beside the program with that file named.
* `broken_usual_file`: over a broken file the standard user asks at the standard address.
-/

namespace TaskWatch.Watch

open TaskWatch.Api (Network)
open TaskWatch.Config (Environment Files)

/-! ## Naming a file -/

namespace Arguments

variable {a b : Arguments} {s : Setting} {value : Option String} (path : String)

/-- What the command line says when it names a file as well. -/
def naming (a : Arguments) : Arguments := { a with config := some path }

theorem has_naming (h : s ≠ .config) : (a.naming path).has s = a.has s := by
  cases s with
  | config => exact absurd rfl h
  | _ => rfl

theorem put_naming (h : s ≠ .config) (v : String) :
    (a.naming path).put s v = (a.put s v).map (naming path) := by
  cases s with
  | config => exact absurd rfl h
  | delayMs | maxWaitSecs =>
    unfold put
    cases Decimal.readUInt64 v <;> rfl
  | _ => rfl

theorem config_put {v : String} (h : a.put s v = .ok b) (hb : b.config = none) :
    s ≠ .config ∧ a.config = none := by
  cases s with
  | config =>
    obtain rfl := Except.ok.inj h
    cases hb
  | delayMs | maxWaitSecs =>
    obtain ⟨n, -, rfl⟩ := map_eq_ok_iff.mp h
    exact ⟨nofun, hb⟩
  | _ =>
    obtain rfl := Except.ok.inj h
    exact ⟨nofun, hb⟩

/-- An option that has been taken in and named no file is taken in beside a file as well. -/
theorem take_naming (h : a.take s value = .ok b) (hb : b.config = none) :
    s ≠ .config ∧ a.config = none ∧ (a.naming path).take s value = .ok (b.naming path) := by
  cases value with
  | none => cases h
  | some v =>
    unfold take at h
    cases hs : a.has s with
    | true => simp [hs] at h
    | false =>
      simp only [hs, Bool.false_eq_true, if_false] at h
      obtain ⟨hne, ha⟩ := config_put h hb
      refine ⟨hne, ha, ?_⟩
      simp only [take, has_naming path hne, hs, put_naming path hne, h,
        Bool.false_eq_true, if_false]
      rfl

namespace Reader

variable {r r' : Reader}

/-- A reader that has been told of a file as well. -/
def naming (r : Reader) : Reader := { r with taken := r.taken.naming path }

/-- No file has been named, and none is about to be. -/
structure Unnamed (r : Reader) : Prop where
  taken : r.taken.config = none
  awaiting : r.pending ≠ .awaiting .config
  complete : ∀ v, r.pending ≠ .complete .config v

/-- A file that has been named stays named, so if none is at the end then none was before. -/
theorem resolve_naming (h : r.resolve = .ok a) (ha : a.config = none) :
    r.Unnamed ∧ (r.naming path).resolve = .ok (a.naming path) := by
  obtain ⟨taken, pending⟩ := r
  cases pending with
  | nothing =>
    obtain rfl := Except.ok.inj h
    exact ⟨⟨ha, nofun, nofun⟩, rfl⟩
  | awaiting s => cases h
  | complete s v =>
    have h : taken.take s (some v) = .ok a := h
    obtain ⟨hne, htaken, htake⟩ := take_naming path h ha
    refine ⟨⟨htaken, nofun, ?_⟩, htake⟩
    rintro v' hv
    exact hne (Open.complete.inj hv).1

theorem link_naming {text : String} (h : r.link text = .ok r') (hr : r'.Unnamed) :
    r.Unnamed ∧ (r.naming path).link text = .ok (r'.naming path) := by
  obtain ⟨a, ha, rfl⟩ := map_eq_ok_iff.mp h
  obtain ⟨hun, hresolve⟩ := resolve_naming path ha hr.taken
  exact ⟨hun, map_eq_ok_iff.mpr ⟨_, hresolve, rfl⟩⟩

theorem option_naming {o : Option CommandOption} (h : r.option o value = .ok r') (hr : r'.Unnamed) :
    r.Unnamed ∧ (r.naming path).option o value = .ok (r'.naming path) := by
  match o, value with
  | none, _ => cases h
  | some (.setting s), none =>
    obtain ⟨a, ha, rfl⟩ := map_eq_ok_iff.mp h
    obtain ⟨hun, hresolve⟩ := resolve_naming path ha hr.taken
    exact ⟨hun, map_eq_ok_iff.mpr ⟨_, hresolve, rfl⟩⟩
  | some (.setting s), some v =>
    obtain ⟨a, ha, h⟩ := bind_eq_ok_iff.mp h
    obtain ⟨b, hb, h⟩ := bind_eq_ok_iff.mp h
    obtain rfl := Except.ok.inj h
    obtain ⟨-, hconfig, htake⟩ := take_naming path hb hr.taken
    obtain ⟨hun, hresolve⟩ := resolve_naming path ha hconfig
    exact ⟨hun, bind_eq_ok_iff.mpr ⟨_, hresolve, bind_eq_ok_iff.mpr ⟨_, htake, rfl⟩⟩⟩
  | some (.inquiry q), _ =>
    obtain ⟨a, -, h⟩ := bind_eq_ok_iff.mp h
    cases h

theorem word_naming {w : Word} (h : r.word w = .ok r') (hr : r'.Unnamed) :
    r.Unnamed ∧ (r.naming path).word w = .ok (r'.naming path) := by
  cases w with
  | mark =>
    obtain rfl := Except.ok.inj h
    exact ⟨hr, rfl⟩
  | letter c v => exact option_naming path h hr
  | long name v =>
    simp only [word] at h ⊢
    split at h
    · cases h
    · exact option_naming path h hr
  | plain text =>
    obtain ⟨taken, pending⟩ := r
    cases pending with
    | awaiting s =>
      obtain rfl := Except.ok.inj h
      refine ⟨⟨hr.taken, ?_, nofun⟩, rfl⟩
      rintro hs
      obtain rfl := Open.awaiting.inj hs
      exact hr.complete text rfl
    | _ => exact link_naming path h hr

theorem links_naming {texts : List String} (h : texts.foldlM (fun r text => r.link text) r = .ok r')
    (hr : r'.Unnamed) : r.Unnamed ∧
      texts.foldlM (fun r text => r.link text) (r.naming path) = .ok (r'.naming path) := by
  induction texts generalizing r with
  | nil =>
    obtain rfl := Except.ok.inj h
    exact ⟨hr, rfl⟩
  | cons text texts ih =>
    obtain ⟨r₁, hlink, h⟩ := bind_eq_ok_iff.mp h
    obtain ⟨hun, hrest⟩ := ih h
    obtain ⟨hun, hnamed⟩ := link_naming path hlink hun
    exact ⟨hun, bind_eq_ok_iff.mpr ⟨_, hnamed, hrest⟩⟩

theorem words_naming {texts : List String} (h : r.words texts = .ok r') (hr : r'.Unnamed) :
    r.Unnamed ∧ (r.naming path).words texts = .ok (r'.naming path) := by
  induction texts generalizing r with
  | nil =>
    obtain rfl := Except.ok.inj h
    exact ⟨hr, rfl⟩
  | cons text texts ih =>
    simp only [words] at h ⊢
    split at h
    · exact links_naming path h hr
    · obtain ⟨r₁, hword, h⟩ := bind_eq_ok_iff.mp h
      obtain ⟨hun, hrest⟩ := ih h
      obtain ⟨hun, hnamed⟩ := word_naming path hword hun
      exact ⟨hun, bind_eq_ok_iff.mpr ⟨_, hnamed, hrest⟩⟩

end Reader

def namingWord : String := "--config=" ++ path

theorem ofText_namingWord : Word.ofText (namingWord path) = .long "config" (some path) := by
  have h : (namingWord path).toList = '-' :: '-' :: ("config".toList ++ '=' :: path.toList) := by
    rw [namingWord, String.toList_append]
    rfl
  unfold Word.ofText
  rw [h]
  show Word.long _ (longValue ('=' :: path.toList)) = _
  rw [longValue, String.ofList_toList]
  rfl

/-- A command line that names no file says the same otherwise when a file is named in front of
it. -/
theorem parse_naming {env : Environment} {texts : List String} (h : parse env texts = .ok a)
    (ha : a.config = none) : parse env (namingWord path :: texts) = .ok (a.naming path) := by
  obtain ⟨r, hwords, h⟩ := bind_eq_ok_iff.mp h
  obtain ⟨b, hresolve, h⟩ := bind_eq_ok_iff.mp h
  by_cases htasks : b.tasks.isEmpty = true
  · rw [if_pos htasks] at h
    cases h
  · rw [if_neg htasks] at h
    obtain rfl := Except.ok.inj h
    obtain ⟨hun, hresolve⟩ := Reader.resolve_naming path hresolve ha
    obtain ⟨-, hwords⟩ := Reader.words_naming path hwords hun
    have hfirst : Reader.start.words (namingWord path :: texts) = .ok (r.naming path) := by
      rw [Reader.words, ofText_namingWord]
      exact hwords
    refine bind_eq_ok_iff.mpr ⟨_, hfirst, bind_eq_ok_iff.mpr ⟨_, hresolve, ?_⟩⟩
    exact if_neg htasks

end Arguments

/-! ## What can go wrong -/

def ofFile : Config.Error → Bool
  | .unreadable .. | .malformed .. => true
  | _ => false

section Settings

variable {files : Files} {env : Environment} {a : Arguments} {s : Settings} {path : String}
  {e : Config.Error}

theorem ofFile_mapError {ε α : Type} {x : Except ε α} {f : ε → Config.Error} {b : Bool}
    (h : x.mapError f = .error e) (hf : ∀ cause, ofFile (f cause) = b) : ofFile e = b := by
  obtain ⟨cause, -, rfl⟩ := mapError_eq_error_iff.mp h
  exact hf cause

theorem ofFile_load (h : Settings.load files path = .error e) : ofFile e = true := by
  rcases bind_eq_error_iff.mp h with h | ⟨text, -, h⟩
  · exact ofFile_mapError h fun _ => rfl
  · split at h
    · obtain rfl := Except.error.inj h
      rfl
    · cases h

theorem ofFile_monitor {s : Monitor.Settings} (h : s.overriddenBy env = .error e) :
    ofFile e = false := by
  rcases bind_eq_error_iff.mp h with h | ⟨delay, -, h⟩
  · exact ofFile_mapError h fun _ => rfl
  rcases bind_eq_error_iff.mp h with h | ⟨threads, -, h⟩
  · exact ofFile_mapError h fun _ => rfl
  · exact ofFile_mapError (map_eq_error_iff.mp h) fun _ => rfl

theorem ofFile_check (h : s.check = .error e) : ofFile e = false := by
  rcases bind_eq_error_iff.mp h with h | ⟨-, -, h⟩
  · exact ofFile_mapError h fun _ => rfl
  · exact ofFile_mapError h fun _ => rfl

theorem ofFile_formatOf {name : Option String} (h : Settings.formatOf name = .error e) :
    ofFile e = false := by
  cases name with
  | none => cases h
  | some name =>
    simp only [Settings.formatOf] at h
    split at h
    · cases h
    · obtain rfl := Except.error.inj h
      rfl

/-- What goes wrong with settings that have been found is not about a file. -/
theorem ofFile_overriddenBy (h : s.overriddenBy env a = .error e) : ofFile e = false := by
  rcases bind_eq_error_iff.mp h with h | ⟨m, -, h⟩
  · exact ofFile_monitor h
  rcases bind_eq_error_iff.mp h with h | ⟨f, -, h⟩
  · exact ofFile_formatOf h
  rcases bind_eq_error_iff.mp h with h | ⟨-, -, h⟩
  · exact ofFile_check h
  · cases h

end Settings

section Runs

variable {σ : Type} {net : Network σ} {w : σ} {why : Failure}

theorem fetchTasks_ne_config {c : Api.Client} {hrefs : List String}
    (h : (fetchTasks net c hrefs w).1 = .error why) (e : Config.Error) : why ≠ .config e := by
  induction hrefs generalizing w with
  | nil => cases h
  | cons href hrefs ih =>
    unfold fetchTasks at h
    split at h
    · obtain rfl := Except.error.inj h
      exact nofun
    · exact ih (map_eq_error_iff.mp h)

/-- What goes wrong in a run is not about its settings. -/
theorem runWith_ne_config {rounds : Nat} {s : Settings} {a : Arguments}
    (h : (runWith net rounds s a w).1 = .error why) (e : Config.Error) : why ≠ .config e := by
  unfold runWith at h
  split at h
  · obtain rfl := Except.error.inj h
    exact nofun
  · rename_i c hc
    split at h
    · rename_i why' w' hfetch
      obtain rfl := Except.error.inj h
      exact fetchTasks_ne_config (congrArg Prod.fst hfetch) e
    · unfold watchTasks at h
      split at h
      · obtain rfl := Except.error.inj h
        exact nofun
      · cases h

theorem ofRun_ne_config {rounds : Nat} {s : Settings} {a : Arguments} (e : Config.Error) :
    Ending.ofRun (runWith net rounds s a w).1 ≠ .failed [] (.config e) := by
  intro h
  cases hrun : (runWith net rounds s a w).1 with
  | error why =>
    rw [hrun] at h
    exact runWith_ne_config hrun e (Ending.failed.inj h).2
  | ok t =>
    rw [hrun, Ending.ofRun] at h
    split at h
    · cases h
    · cases (Ending.failed.inj h).2

end Runs

/-! ## With the file and without it -/

section Programs

variable {σ : Type} {files : Files} {env : Environment} {net : Network σ} {rounds : Nat}
  {texts : List String} {w : σ} {a : Arguments} {s : Settings} {e : Config.Error}

/-- The program, once its command line has been read and settings have been looked for. -/
def continueWith (net : Network σ) (rounds : Nat) (a : Arguments) (w : σ) :
    Except Config.Error Settings → Ending × σ
  | .error why => (.failed [] (.config why), w)
  | .ok s => (.ofRun (runWith net rounds s a w).1, (runWith net rounds s a w).2)

theorem program_eq (h : Arguments.parse env texts = .ok a) :
    program files env net rounds texts w =
      continueWith net rounds a w (Settings.find files a.config >>=
        Settings.overriddenBy env a) := by
  simp only [program, h]
  cases Settings.find files a.config >>= Settings.overriddenBy env a with
  | error why => rfl
  | ok s => rfl

theorem continueWith_ne {x : Except Config.Error Settings}
    (hx : ∀ e', x = .error e' → ofFile e' = false)
    (he : ofFile e = true) : continueWith net rounds a w x ≠ (.failed [] (.config e), w) := by
  intro h
  have hending := congrArg Prod.fst h
  cases x with
  | error e' =>
    obtain rfl := Failure.config.inj (Ending.failed.inj hending).2
    rw [hx e' rfl] at he
    exact Bool.false_ne_true he
  | ok s => exact ofRun_ne_config e hending

/-- **The usual file counts only when it loads.**  A command line names no file, and another one
says the same with the usual file named.  If settings can be read from that file, the program does
the same for both.  If not, whatever is wrong with the file, it goes on for the first one as if
there were no file, and it fails for the second one with what is wrong, before it sends any request;
and this is never the same.  There is such a second command line for each first one. -/
theorem program_usual_file (hp : Arguments.parse env texts = .ok a) (ha : a.config = none) :
    Arguments.parse env (Arguments.namingWord Settings.usualPath :: texts) =
      .ok (a.naming Settings.usualPath) ∧
    ∀ named, Arguments.parse env named = .ok (a.naming Settings.usualPath) →
      (program files env net rounds texts w = program files env net rounds named w ↔
        ∃ s, Settings.load files Settings.usualPath = .ok s) ∧
      ∀ e, Settings.load files Settings.usualPath = .error e →
        program files env net rounds texts w =
          program (fun _ => .error .missing) env net rounds texts w ∧
        program files env net rounds named w = (.failed [] (.config e), w) := by
  refine ⟨Arguments.parse_naming _ hp ha, fun named hnamed => ?_⟩
  have hsame : program files env net rounds named w = continueWith net rounds a w
      (Settings.load files Settings.usualPath >>= Settings.overriddenBy env a) := program_eq hnamed
  have halone : ∀ files, program files env net rounds texts w = continueWith net rounds a w
      (Settings.overriddenBy env a
        ((Settings.load files Settings.usualPath).toOption.getD .standard)) := by
    intro files
    rw [program_eq hp, ha]
    rfl
  rw [hsame, halone files, halone fun _ => .error .missing]
  cases hload : Settings.load files Settings.usualPath with
  | ok s => exact ⟨⟨fun _ => ⟨s, rfl⟩, fun _ => rfl⟩, nofun⟩
  | error e =>
    have hfails : continueWith net rounds a w (Settings.standard.overriddenBy env a) ≠
        (.failed [] (.config e), w) :=
      continueWith_ne (fun _ => ofFile_overriddenBy) (ofFile_load hload)
    refine ⟨⟨fun h => absurd h hfails, nofun⟩, ?_⟩
    intro e' he
    obtain rfl := Except.error.inj he
    exact ⟨rfl, rfl⟩

end Programs

/-- A run without variables, where there is no file but the usual one and no request is answered.
Reading the usual file comes to `content`. -/
def runWithUsual (content : Except Config.FileFault String) (texts : List String) :
    Ending × List Api.Exchange :=
  program (fun path => if path = Settings.usualPath then content else .error .missing)
    (fun _ => none) (.recording .nothing) 0 texts []

/-- A usual file with a delay is as good as a named one. -/
theorem usual_file_with_a_delay :
    runWithUsual (.ok "monitor: \x7bpoll_delay_ms: 250\x7d") ["tasks/1"] =
      runWithUsual (.ok "monitor: \x7bpoll_delay_ms: 250\x7d")
        [Arguments.namingWord Settings.usualPath, "tasks/1"] := by
  have hp : Arguments.parse (fun _ => none) ["tasks/1"] =
      .ok { Arguments.empty with tasks := ["tasks/1"] } := rfl
  have hload : (Settings.load (fun path => if path = Settings.usualPath then
      .ok "monitor: \x7bpoll_delay_ms: 250\x7d" else .error .missing) Settings.usualPath).toOption =
        some { Settings.standard with monitor := ⟨250, 10⟩ } := by decide +kernel
  obtain ⟨hnamed, h⟩ := program_usual_file hp rfl
  exact (h _ hnamed).1.mpr ⟨_, toOption_eq_some_iff.mp hload⟩

/-- A usual file in which a number is missing, and one that must not be read, are there.  Still the
standard user asks at the standard address; with the file named, nothing is asked. -/
theorem broken_usual_file :
    let broken := .ok "api: \x7bendpoint: https://abiquo.example.com/api, timeout_secs: soon\x7d"
    let locked := .error (.other true "Permission denied (os error 13)")
    let named := [Arguments.namingWord Settings.usualPath, "tasks/1"]
    let asked := [⟨⟨"http://localhost/api/tasks/1", Api.taskMediaType, "admin", ""⟩, .nothing⟩]
    (runWithUsual broken ["tasks/1"]).2 = asked ∧ (runWithUsual locked ["tasks/1"]).2 = asked ∧
    (runWithUsual broken named).1.complaint.head? = some "Error: Failed to parse config file" ∧
    (runWithUsual broken named).2 = [] ∧
    (runWithUsual locked named).1.complaint.head? =
      some "Error: Failed to read config file: /etc/abiquo/watch.yaml" ∧
    (runWithUsual locked named).2 = [] := by
  decide +kernel

end TaskWatch.Watch
