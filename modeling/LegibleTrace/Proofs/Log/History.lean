import LegibleTrace.Log.Call
import LegibleTrace.Proofs.Log.Library

/-! A session after any sequence of calls. Each part of its state was last written by some call,
and the latest of these decides it: the latest setup with known names the level and the format,
and the latest call that concerns a name what is bound to it. -/
namespace LegibleTrace.Log

namespace Call

/-- The level and the format that a call puts in force. A setup by unknown names puts none. -/
def setting? : Call → Option (Level × Format)
  | configure level format _ _ =>
    match Level.ofName? (Text.upper level), Format.ofName? (Text.lower format) with
    | some level, some format => some (level, format)
    | _, _ => none
  | apply settings => some (settings.level, settings.format)
  | _ => none

/-- What a call makes of the value that is bound to a name, if the call concerns the name. -/
def change? (name : Text) : Call → Option (Option Value)
  | bind fields => (fields.given? name).map some
  | unbind names => if name ∈ names then some none else none
  | clear => some none
  | _ => none

/-- What a call logs, with the keeper of the logger if it is kept. -/
def logged? : Call → Option (Option Keeper × Record × List Value)
  | log keeper record arguments =>
    some (keeper.map .application,
      { record with logger := Session.loggerName record.logger }, arguments)
  | report reporter event =>
    some (some (.reporter reporter), Record.ofEvent reporter.logger event, [])
  | _ => none

/-- Whose lazy logger a call uses. -/
def keeper? (call : Call) : Option Keeper :=
  call.logged?.bind Prod.fst

variable {call : Call}

theorem change?_of_setting? {setting : Level × Format} (sets : call.setting? = some setting)
    (name : Text) : call.change? name = none := by
  cases call with
  | configure | apply => rfl
  | bind | unbind | clear | log | report | proceed => cases sets

theorem logged?_of_setting? {setting : Level × Format} (sets : call.setting? = some setting) :
    call.logged? = none := by
  cases call with
  | configure | apply => rfl
  | bind | unbind | clear | log | report | proceed => cases sets

theorem setting?_of_keeper? {keeper : Keeper} (uses : call.keeper? = some keeper) :
    call.setting? = none := by
  cases call with
  | log | report => rfl
  | configure | apply | bind | unbind | clear | proceed => cases uses

theorem change?_of_keeper? {keeper : Keeper} (uses : call.keeper? = some keeper) (name : Text) :
    call.change? name = none := by
  cases call with
  | log | report => rfl
  | configure | apply | bind | unbind | clear | proceed => cases uses

end Call

/-- The level and the format of the latest setup. -/
def latest? (calls : List Call) : Option (Level × Format) :=
  (calls.filterMap Call.setting?).getLast?

/-- The value bound to a name and not unbound or cleared since. -/
def bound? (calls : List Call) (name : Text) : Option Value :=
  (calls.filterMap (Call.change? name)).getLast?.join

namespace Session

variable {σ : Type} {library : Library σ}

/-- What a call can make of a session, with one rule for each kind of call. -/
inductive Next (library : Library σ) (session : Session σ) : Call → Session σ → Prop
  | configured (call level format file directory) (sets : call.setting? = some (level, format)) :
      Next library session call { session with
        state := library.configure (config format) session.state
        setup := some ⟨level, file⟩
        directory }
  | refused (level format path enabled)
      (unset : (Call.configure level format path enabled).setting? = none) :
      Next library session (.configure level format path enabled) session
  | bind (fields) :
      Next library session (.bind fields)
        { session with state := library.bind fields session.state }
  | unbind (names) :
      Next library session (.unbind names)
        { session with state := library.unbind names session.state }
  | clear : Next library session .clear { session with state := library.clear session.state }
  | used (call keeper) (uses : call.keeper? = some keeper) :
      Next library session call
        { session with state := (library.use keeper session.state).1 }
  | log (record arguments) : Next library session (.log none record arguments) session
  | proceed (host) : Next library session (.proceed host) { session with host }

section

variable {session : Session σ} {level : Level} {format : Format} {levelName formatName : Text}

theorem configure_eq (library : Library σ) (session : Session σ) (level : Level)
    (format : Format) (path : Option Path) :
    ∃ file directory, (session.configure library level format path).1 = { session with
      state := library.configure (config format) session.state
      setup := some ⟨level, file⟩
      directory } := by
  cases path with
  | none => exact ⟨none, session.directory, rfl⟩
  | some path =>
    rw [configure.eq_def]
    dsimp only
    split
    · exact ⟨_, _, rfl⟩
    · exact ⟨none, _, rfl⟩

theorem configureByName_of_unknown_level (unknown : Level.ofName? (Text.upper levelName) = none)
    (formatName : Text) (file : Option Path) :
    session.configureByName library levelName formatName file =
      .error (.level (Text.upper levelName)) := by
  rw [configureByName, Level.parse, unknown]
  rfl

theorem configureByName_of_unknown_format
    (known : Level.ofName? (Text.upper levelName) = some level)
    (unknown : Format.ofName? (Text.lower formatName) = none) (file : Option Path) :
    session.configureByName library levelName formatName file =
      .error (.format (Text.lower formatName)) := by
  rw [configureByName, Level.parse, known, Format.parse, unknown]
  rfl

theorem configureByName_of_known (known : Level.ofName? (Text.upper levelName) = some level)
    (listed : Format.ofName? (Text.lower formatName) = some format) (file : Option Path) :
    session.configureByName library levelName formatName file =
      .ok (session.configure library level format file) := by
  rw [configureByName, Level.parse, known, Format.parse, listed]
  rfl

theorem next_configure (library : Library σ) (session : Session σ)
    (levelName formatName : Text) (path : Option Text) (enabled : Bool) :
    let call := Call.configure levelName formatName path enabled
    session.Next library call (session.step library call).1 := by
  intro call
  cases known : Level.ofName? (Text.upper levelName) with
  | none =>
    rw [step, configureByName_of_unknown_level known]
    exact .refused levelName formatName path enabled (by rw [Call.setting?, known])
  | some level =>
    cases listed : Format.ofName? (Text.lower formatName) with
    | none =>
      rw [step, configureByName_of_unknown_format known listed]
      exact .refused levelName formatName path enabled (by rw [Call.setting?, known, listed])
    | some format =>
      obtain ⟨file, directory, next⟩ :=
        session.configure_eq library level format (chosenFile path enabled)
      rw [step, configureByName_of_known known listed]
      dsimp only
      rw [next]
      exact .configured call level format file directory (by rw [Call.setting?, known, listed])

theorem next_step (library : Library σ) (session : Session σ) (call : Call) :
    session.Next library call (session.step library call).1 := by
  cases call with
  | configure level format path enabled =>
    exact session.next_configure library level format path enabled
  | apply settings =>
    obtain ⟨file, directory, next⟩ := session.configure_eq library settings.level settings.format
      (if settings.file.enabled then some settings.file.path else none)
    change session.Next library _ (session.applySettings library settings).1
    rw [applySettings, next]
    exact .configured _ _ _ file directory rfl
  | bind fields => exact .bind fields
  | unbind names => exact .unbind names
  | clear => exact .clear
  | log keeper record arguments =>
    cases keeper with
    | none => exact .log record arguments
    | some number => exact .used _ (.application number) rfl
  | report reporter event => exact .used _ (.reporter reporter) rfl
  | proceed host => exact .proceed host

end

/-- A part of the state that each call writes or leaves alone is what was written last. -/
theorem view_run {α : Type} (view : Session σ → α) (write : Call → Option α)
    (writes : ∀ {session call next}, Next library session call next →
      view next = (write call).getD (view session))
    (session : Session σ) (calls : List Call) :
    view (session.run library calls) =
      (calls.filterMap write).getLast?.getD (view session) := by
  induction calls generalizing session with
  | nil => rfl
  | cons call calls ih =>
    change view ((session.step library call).1.run library calls) = _
    rw [ih, writes (session.next_step library call)]
    cases written : write call with
    | none => rw [List.filterMap_cons_none written, Option.getD_none]
    | some value =>
      rw [List.filterMap_cons_some written, List.getLast?_cons, Option.getD_some,
        Option.getD_some]

theorem run_append (session : Session σ) (first second : List Call) :
    session.run library (first ++ second) =
      (session.run library first).run library second :=
  List.foldl_append

def inForce (library : Library σ) (session : Session σ) : Option Level × Option Config :=
  (session.setup.map Setup.level, (library.view session.state).config)

def settled (setting : Option (Level × Format)) : Option Level × Option Config :=
  (setting.map Prod.fst, setting.map fun setting => config setting.2)

section

variable {session next : Session σ} {call : Call} (documented : library.Documented)
include documented

theorem view_use (keeper : Keeper) (state : σ) :
    ∃ kept, library.view (library.use keeper state).1 = { library.view state with kept } := by
  by_cases caches : ∃ config, (library.view state).config = some config ∧
      config.cachesFirstUse = true
  · obtain ⟨config, configured, asked⟩ := caches
    exact ⟨_, documented.keeps keeper state config configured asked⟩
  · refine ⟨(library.view state).kept, documented.passes keeper state ?_⟩
    intro config configured
    exact Bool.eq_false_iff.mpr fun asked => caches ⟨config, configured, asked⟩

theorem Next.inForce_eq (moves : Next library session call next) :
    next.inForce library =
      (call.setting?.map fun setting => settled (some setting)).getD
        (session.inForce library) := by
  cases moves with
  | configured _ level format file directory sets =>
    rw [sets, inForce, documented.configure]
    rfl
  | refused level format path enabled unset => rw [unset]; rfl
  | bind fields => rw [inForce, documented.bind]; rfl
  | unbind names => rw [inForce, documented.unbind]; rfl
  | clear => rw [inForce, documented.clear]; rfl
  | used _ keeper uses =>
    obtain ⟨kept, seen⟩ := view_use documented keeper session.state
    rw [Call.setting?_of_keeper? uses, inForce, seen]
    rfl
  | log | proceed => rfl

theorem Next.bound_eq (moves : Next library session call next) (name : Text) :
    (library.view next.state).bound name =
      (call.change? name).getD ((library.view session.state).bound name) := by
  cases moves with
  | configured _ level format file directory sets =>
    rw [Call.change?_of_setting? sets, documented.configure]
    rfl
  | bind fields =>
    rw [documented.bind, Call.change?]
    change (fields.given? name).or _ = _
    cases fields.given? name <;> rfl
  | unbind names =>
    rw [documented.unbind, Call.change?]
    by_cases inside : name ∈ names <;> simp [inside]
  | clear => rw [documented.clear]; rfl
  | used _ keeper uses =>
    obtain ⟨kept, seen⟩ := view_use documented keeper session.state
    rw [Call.change?_of_keeper? uses, seen]
    rfl
  | refused | log | proceed => rfl

variable (directory : Directory) (host : Host) (calls : List Call)

theorem inForce_run :
    ((start library directory host).run library calls).inForce library =
      settled (latest? calls) := by
  rw [view_run (inForce library) (fun call => call.setting?.map fun setting =>
    settled (some setting)) (Next.inForce_eq documented), latest?]
  have written : calls.filterMap (fun call => call.setting?.map fun setting =>
      settled (some setting)) =
      (calls.filterMap Call.setting?).map fun setting => settled (some setting) :=
    (List.map_filterMap).symm
  rw [written, List.getLast?_map]
  cases (calls.filterMap Call.setting?).getLast? with
  | none => rw [inForce, start, documented.initial]; rfl
  | some setting => rfl

theorem level_run :
    ((start library directory host).run library calls).setup.map Setup.level =
      (latest? calls).map Prod.fst :=
  congrArg Prod.fst (inForce_run documented directory host calls)

theorem config_run :
    (library.view ((start library directory host).run library calls).state).config =
      (latest? calls).map fun setting => config setting.2 :=
  congrArg Prod.snd (inForce_run documented directory host calls)

theorem bound_run (name : Text) :
    (library.view ((start library directory host).run library calls).state).bound name =
      bound? calls name := by
  rw [view_run (fun session => (library.view session.state).bound name) (Call.change? name)
    fun moves => moves.bound_eq documented name, bound?, start, documented.initial]
  cases (calls.filterMap (Call.change? name)).getLast? <;> rfl

end
end Session
end LegibleTrace.Log
