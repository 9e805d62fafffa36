import Breaker.Proofs.Panel

/-!
# Every breaker of a panel is alone

Whatever clients do with a panel and its breakers, the breaker of a name lives as
one that stands by itself: it is built when it is first got, with the settings
for its name and with the listener of that instant, and makes the moves that are
addressed to it.  What is done with other names is not among them, and a
listener that comes later is not told.

* `Run.biography` reads off the acts when the breaker of a name was built, and
  which moves it was to make;
* `Stage.Fate` is what one act does to the breaker of one name, and `Kept.fate`
  says that there is nothing else;
* `alone_of_run` compares with the life of a single breaker.

The listeners only return, and the clock can hold every deadline.
-/

namespace Breaker.Panel

/-! ## Runs of a panel -/

/-- One act of a run, with the panel it found and what it made of it. -/
structure Stage where
  before : Panel
  now : Instant
  act : Act
  done : Done

/-- The stages of a run in order, and the panel that the last one left. -/
structure Run where
  stages : List Stage := []
  panel : Panel

/-- The run with one more act. -/
def Run.extend (run : Run) (entry : Instant × Act) : Option Run :=
  (run.panel.act entry.1 entry.2).map fun done =>
    { stages := run.stages ++ [{ before := run.panel, now := entry.1, act := entry.2, done }]
      panel := done.panel }

/-- The run that a schedule makes, if every act of it can be done. -/
def run (p : Panel) (schedule : List (Instant × Act)) : Option Run :=
  schedule.foldlM Run.extend { panel := p }

/-- All responses of one breaker, in order. -/
def Run.responsesOf (run : Run) (name : String) : List Engine.Response :=
  run.stages.flatMap fun s => Panel.responsesOf name s.done.responses

/-! ## What is addressed to one name -/

/-- The moves that an act addresses to the breaker of that name. -/
def Act.movesOf (name : String) : Act → List Move
  | .on other move => if other = name then [move] else []
  | .snapshots _ => [.query]
  | .resetAll _ => [.reset]
  | _ => []

/-- Does the act hand out the breaker of that name? -/
def Stage.handsOut (name : String) (s : Stage) : Bool :=
  match s.act, s.done.answer with
  | .get other, .got _ => other == name
  | _, _ => false

/-- What a single breaker lives through. -/
structure Biography where
  audience : Audience
  born : Instant
  moves : List (Instant × Move)
  deriving DecidableEq, Repr

/-- The moves that are addressed to a name, each with its instant. -/
def movesOf (name : String) (stages : List Stage) : List (Instant × Move) :=
  stages.flatMap fun s => (s.act.movesOf name).map fun move => (s.now, move)

/-- The breaker of a name is built when it is first handed out, for the listener
of that instant, and makes the moves that are addressed to it from then on. -/
def Run.biography (run : Run) (name : String) : Option Biography :=
  match run.stages.dropWhile fun s => !s.handsOut name with
  | [] => none
  | first :: rest =>
    some { audience := first.before.audience, born := first.now, moves := movesOf name rest }

/-- The breaker of that name has lived as one that stands by itself. -/
def Run.Alone (settings : Settings) (run : Run) (name : String) : Prop :=
  match run.biography name with
  | none => run.panel.find? name = none ∧ run.responsesOf name = []
  | some b => ∃ solo,
    Engine.lifeQuiet name (settings.limitsFor name).toPolicy b.audience b.born b.moves =
        some solo ∧
      run.panel.find? name = some solo.engine ∧
      run.responsesOf name = solo.stages.map Engine.Stage.response

/-- What clients are told is what the breakers answered. -/
structure Stage.Reports (s : Stage) : Prop where
  reply : ∀ name move, s.act = .on name move →
    ∃ r, s.done.responses = [(name, r)] ∧ s.done.answer = .reply r.reply
  listing : ∀ order, s.act = .snapshots order → ∃ views, s.done.answer = .listing views ∧
    ∀ name v, (name, v) ∈ views ↔
      ∃ r ∈ Panel.responsesOf name s.done.responses, r.reply = .view v

/-! ## One act -/

/-- What an act does to the breaker of one name. -/
inductive Stage.Fate (s : Stage) (name : String) : Prop where
  | absent (hbefore : s.before.find? name = none) (hhands : s.handsOut name = false)
      (hafter : s.done.panel.find? name = none)
      (hnone : Panel.responsesOf name s.done.responses = [])
  | built {e : Engine} (hbefore : s.before.find? name = none) (hhands : s.handsOut name = true)
      (hnew : Engine.new? name (s.before.settings.limitsFor name).toPolicy s.before.audience
        s.now = some e)
      (hafter : s.done.panel.find? name = some e)
      (hnone : Panel.responsesOf name s.done.responses = [])
  | left {e : Engine} (hbefore : s.before.find? name = some e) (hmoves : s.act.movesOf name = [])
      (hafter : s.done.panel.find? name = some e)
      (hnone : Panel.responsesOf name s.done.responses = [])
  | moved {e : Engine} {move : Move} {r : Engine.Response}
      (hbefore : s.before.find? name = some e) (hmoves : s.act.movesOf name = [move])
      (hquiet : e.stepQuiet s.now move = some r) (hafter : s.done.panel.find? name = some r.engine)
      (hone : Panel.responsesOf name s.done.responses = [r])

/-- The panel keeps its settings, has one breaker for a name at most, and all of
them are at rest. -/
structure Kept (settings : Settings) (p : Panel) : Prop where
  settings_eq : p.settings = settings
  nodup : p.roll.Nodup
  resting : ∀ name e, p.find? name = some e →
    ∃ audience, Engine.Resting name (settings.limitsFor name).toPolicy audience e

section

variable {settings : Settings} {p : Panel} {name : String} {now : Instant} {s : Stage}

/-- An act that changes no breaker and asks none. -/
theorem fate_of_same (hsame : ∀ name, s.done.panel.find? name = s.before.find? name)
    (hnone : s.done.responses = []) (hmoves : s.act.movesOf name = [])
    (hhands : s.before.find? name = none → s.handsOut name = false) : s.Fate name := by
  have hresponses : Panel.responsesOf name s.done.responses = [] := by rw [hnone]; rfl
  cases hbefore : s.before.find? name with
  | none => exact .absent hbefore (hhands hbefore) ((hsame name).trans hbefore) hresponses
  | some e => exact .left hbefore hmoves ((hsame name).trans hbefore) hresponses

theorem fate_of_get {other : String} (hact : s.act = .get other)
    (hdone : s.before.act s.now s.act = some s.done) : s.Fate name := by
  have hmoves : s.act.movesOf name = [] := by rw [hact]; rfl
  rw [hact] at hdone
  rcases get_cases s.before s.now other with
    ⟨e, hfind, hget⟩ | ⟨hfind, e, hbuild, hget⟩ | ⟨hfind, failure, hget⟩
  · -- The breaker is there already, so it is not handed out for the first time.
    simp only [act, hget, Option.some.injEq] at hdone
    refine fate_of_same (fun _ => by rw [← hdone]) (by rw [← hdone]) hmoves fun hnone => ?_
    have hne : other ≠ name := by
      rintro rfl
      rw [hfind] at hnone
      cases hnone
    simp [Stage.handsOut, hact, ← hdone, hne]
  · have hnew := build_eq_ok hbuild
    have hname : e.name = other := (Engine.built_new hnew).name_eq
    simp only [act, hget, Option.some.injEq] at hdone
    have hafter : s.done.panel.find? name =
        if name = other then some ((s.before.find? name).getD e) else s.before.find? name := by
      rw [← hdone, find?_insertNew, hname]
    have hnone : Panel.responsesOf name s.done.responses = [] := by rw [← hdone]; rfl
    by_cases hsame : name = other
    · subst hsame
      rw [if_pos rfl, hfind] at hafter
      exact .built hfind (by simp [Stage.handsOut, hact, ← hdone]) hnew hafter hnone
    · rw [if_neg hsame] at hafter
      cases hbefore : s.before.find? name with
      | none =>
        refine .absent hbefore ?_ (hafter.trans hbefore) hnone
        simp [Stage.handsOut, hact, ← hdone, Ne.symm hsame]
      | some e' => exact .left hbefore hmoves (hafter.trans hbefore) hnone
  · simp only [act, hget, Option.some.injEq] at hdone
    refine fate_of_same (fun _ => by rw [← hdone]) (by rw [← hdone]) hmoves fun _ => ?_
    simp [Stage.handsOut, hact, ← hdone]

theorem fate_of_on {other : String} {move : Move} (hact : s.act = .on other move)
    (hdone : s.before.act s.now s.act = some s.done) : s.Fate name := by
  have hhands : s.handsOut name = false := by simp [Stage.handsOut, hact]
  rw [hact] at hdone
  obtain ⟨⟨p', r⟩, hstep, hdone⟩ := Option.map_eq_some_iff.1 hdone
  have hfound : s.done.panel.find? name =
      if name = other then some r.engine else s.before.find? name := by
    rw [← hdone]
    exact find?_stepQuiet hstep name
  have hresponses : s.done.responses = [(other, r)] := by rw [← hdone]
  obtain ⟨e, hfind, hquiet, -, -⟩ := stepQuiet_eq_some hstep
  by_cases hsame : name = other
  · subst hsame
    rw [if_pos rfl] at hfound
    exact .moved hfind (by simp [hact, Act.movesOf]) hquiet hfound
      (by simp [hresponses, Panel.responsesOf])
  · rw [if_neg hsame] at hfound
    have hnone : Panel.responsesOf name s.done.responses = [] := by
      simp [hresponses, Panel.responsesOf, Ne.symm hsame]
    cases hbefore : s.before.find? name with
    | none => exact .absent hbefore hhands (hfound.trans hbefore) hnone
    | some e' =>
      refine .left hbefore ?_ (hfound.trans hbefore) hnone
      simp [hact, Act.movesOf, Ne.symm hsame]

theorem fate_of_visited {order : List String} {move : Move} (hperm : order.Perm s.before.roll)
    (hmoves : s.act.movesOf name = [move]) (hhands : s.handsOut name = false)
    (hvisited : s.before.Visited s.now move order s.done.panel s.done.responses) :
    s.Fate name := by
  by_cases hname : name ∈ order
  · obtain ⟨e, r, hfind, hquiet, hafter, hone, -⟩ := hvisited.visits name hname
    exact .moved hfind hmoves hquiet hafter hone
  · obtain ⟨hafter, hnone⟩ := hvisited.passes name hname
    have hbefore : s.before.find? name = none :=
      find?_eq_none_iff.2 fun hroll => hname (hperm.mem_iff.2 hroll)
    exact .absent hbefore hhands (hafter.trans hbefore) hnone

theorem Kept.ready (h : Kept settings p) (hfits : FitsAll settings now) {move : Move}
    (hmove : move = .query ∨ move = .reset) : ∀ name ∈ p.roll, p.Ready now move name := by
  refine fun name => ready_of_fits (fun e hfind => ?_) hmove
  obtain ⟨audience, hresting⟩ := h.resting name e hfind
  exact hresting.policy_eq ▸ hfits name

/-- An act does to the breaker of a name what is addressed to it, and no more. -/
theorem Kept.fate (h : Kept settings s.before) (hfits : FitsAll settings s.now)
    (hdone : s.before.act s.now s.act = some s.done) (name : String) : s.Fate name := by
  cases hact : s.act with
  | get other => exact fate_of_get hact hdone
  | on other move => exact fate_of_on hact hdone
  | snapshots order =>
    rw [hact] at hdone
    have hperm := perm_of_visit (.inl hdone)
    obtain ⟨p', responses, hdone', -, hvisited⟩ :=
      act_snapshots hperm h.nodup (h.ready hfits (.inl rfl))
    have heq := Option.some.inj (hdone'.symm.trans hdone)
    refine fate_of_visited hperm (by rw [hact]; rfl) (by simp [Stage.handsOut, hact]) ?_
    rw [← heq]
    exact hvisited
  | resetAll order =>
    rw [hact] at hdone
    have hperm := perm_of_visit (.inr hdone)
    obtain ⟨p', responses, hdone', -, hvisited⟩ :=
      act_resetAll hperm h.nodup (h.ready hfits (.inr rfl))
    have heq := Option.some.inj (hdone'.symm.trans hdone)
    refine fate_of_visited hperm (by rw [hact]; rfl) (by simp [Stage.handsOut, hact]) ?_
    rw [← heq]
    exact hvisited
  | size =>
    rw [hact] at hdone
    simp only [act, Option.some.injEq] at hdone
    exact fate_of_same (fun _ => by rw [← hdone]) (by rw [← hdone]) (by rw [hact]; rfl)
      fun _ => by simp [Stage.handsOut, hact]
  | listen audience =>
    rw [hact] at hdone
    simp only [act, Option.some.injEq] at hdone
    exact fate_of_same (fun _ => by rw [← hdone]; rfl) (by rw [← hdone]) (by rw [hact]; rfl)
      fun _ => by simp [Stage.handsOut, hact]

theorem Kept.next (h : Kept settings s.before) (hfits : FitsAll settings s.now)
    (hdone : s.before.act s.now s.act = some s.done) : Kept settings s.done.panel := by
  obtain ⟨hsettings, hnodup⟩ := act_keeps hdone h.nodup
  refine ⟨hsettings.trans h.settings_eq, hnodup, fun name e hfind => ?_⟩
  cases h.fate hfits hdone name with
  | absent hbefore hhands hafter hnone =>
    rw [hafter] at hfind
    cases hfind
  | built hbefore hhands hnew hafter hnone =>
    rw [hafter] at hfind
    cases hfind
    exact ⟨s.before.audience, Engine.resting_new (h.settings_eq ▸ hnew)⟩
  | left hbefore hmoves hafter hnone =>
    rw [hafter] at hfind
    cases hfind
    exact h.resting name _ hbefore
  | @moved e move r hbefore hmoves hquiet hafter hone =>
    rw [hafter] at hfind
    cases hfind
    obtain ⟨audience, hresting⟩ := h.resting name e hbefore
    exact ⟨audience, (Engine.Resting.next
      (s := { before := e, now := s.now, move, response := r }) hresting (hfits name) hquiet).1⟩

theorem Kept.reports (h : Kept settings s.before) (hfits : FitsAll settings s.now)
    (hdone : s.before.act s.now s.act = some s.done) : s.Reports where
  reply name move hact := by
    rw [hact] at hdone
    obtain ⟨⟨p', r⟩, -, hdone⟩ := Option.map_eq_some_iff.1 hdone
    exact ⟨r, by rw [← hdone], by rw [← hdone]⟩
  listing order hact := by
    rw [hact] at hdone
    obtain ⟨p', responses, hdone', -, -⟩ :=
      act_snapshots (perm_of_visit (.inl hdone)) h.nodup (h.ready hfits (.inl rfl))
    have heq := Option.some.inj (hdone'.symm.trans hdone)
    exact ⟨_, by rw [← heq], fun name v => by rw [← heq]; exact mem_listingOf⟩

/-! ## Runs -/

theorem Run.responsesOf_snoc (run : Run) (s : Stage) (name : String) (p : Panel) :
    Run.responsesOf { stages := run.stages ++ [s], panel := p } name =
      run.responsesOf name ++ Panel.responsesOf name s.done.responses := by
  simp [Run.responsesOf, List.flatMap_append]

/-- One more act begins a biography, or goes on with it. -/
theorem Run.biography_snoc (run : Run) (s : Stage) (name : String) (p : Panel) :
    Run.biography { stages := run.stages ++ [s], panel := p } name =
      match run.biography name with
      | none => if s.handsOut name then
          some { audience := s.before.audience, born := s.now, moves := [] } else none
      | some b => some { b with moves := b.moves ++ movesOf name [s] } := by
  simp only [Run.biography, List.dropWhile_append]
  cases hdrop : run.stages.dropWhile fun s => !s.handsOut name with
  | nil => cases hhands : s.handsOut name <;> simp [hhands, movesOf]
  | cons first rest => simp [movesOf, List.flatMap_append]

/-- What the act does to the breaker of a name is what the single breaker does
next. -/
theorem Run.Alone.snoc {run : Run} (h : run.Alone settings name)
    (hsettings : s.before.settings = settings) (hbefore : run.panel = s.before)
    (hfate : s.Fate name) :
    Run.Alone settings { stages := run.stages ++ [s], panel := s.done.panel } name := by
  unfold Run.Alone at h ⊢
  rw [Run.biography_snoc, Run.responsesOf_snoc]
  rw [hbefore] at h
  cases hbiography : run.biography name with
  | none =>
    simp only [hbiography] at h ⊢
    obtain ⟨hfind, hresponses⟩ := h
    cases hfate with
    | absent _ hhands hafter hnone =>
      simp only [hhands]
      exact ⟨hafter, by rw [hresponses, hnone]; rfl⟩
    | @built e _ hhands hnew hafter hnone =>
      simp only [hhands, if_true]
      refine ⟨{ engine := e }, ?_, hafter, by rw [hresponses, hnone]; rfl⟩
      rw [Engine.lifeQuiet, ← hsettings, hnew]
      rfl
    | left hfound _ _ _ =>
      rw [hfind] at hfound
      cases hfound
    | moved hfound _ _ _ _ =>
      rw [hfind] at hfound
      cases hfound
  | some b =>
    simp only [hbiography] at h ⊢
    obtain ⟨solo, hlife, hfind, hresponses⟩ := h
    cases hfate with
    | absent hfound _ _ _ =>
      rw [hfind] at hfound
      cases hfound
    | built hfound _ _ _ _ =>
      rw [hfind] at hfound
      cases hfound
    | left hfound hmoves hafter hnone =>
      rw [hfind] at hfound
      cases hfound
      refine ⟨solo, ?_, hafter, by rw [hresponses, hnone, List.append_nil]⟩
      simpa [movesOf, hmoves] using hlife
    | @moved e move r hfound hmoves hquiet hafter hone =>
      rw [hfind] at hfound
      cases hfound
      have hnext := Engine.lifeQuiet_snoc hlife hquiet
      refine ⟨solo.snoc { before := solo.engine, now := s.now, move, response := r }, ?_, hafter,
        ?_⟩
      · simpa [movesOf, hmoves] using hnext
      · rw [hresponses, hone]
        simp [Engine.Run.snoc]

theorem kept_new (hpanel : Panel.new settings = .ok p) : Kept settings p := by
  obtain ⟨rfl, hnone⟩ := find?_new hpanel
  refine ⟨rfl, List.nodup_nil, fun name e hfind => ?_⟩
  rw [hnone] at hfind
  cases hfind

/-- What holds of a panel in the course of a run. -/
structure Run.Orderly (settings : Settings) (run : Run) : Prop where
  kept : Kept settings run.panel
  alone : ∀ name, run.Alone settings name
  reports : ∀ s ∈ run.stages, s.Reports

theorem Run.Orderly.snoc {run : Run} (h : run.Orderly settings)
    (hfits : FitsAll settings s.now) (hbefore : run.panel = s.before)
    (hdone : s.before.act s.now s.act = some s.done) :
    Run.Orderly settings { stages := run.stages ++ [s], panel := s.done.panel } := by
  have hkept : Kept settings s.before := hbefore ▸ h.kept
  refine ⟨hkept.next hfits hdone, fun name => ?_, ?_⟩
  · exact (h.alone name).snoc hkept.settings_eq hbefore (hkept.fate hfits hdone name)
  · rw [List.forall_mem_append, List.forall_mem_singleton]
    exact ⟨h.reports, hkept.reports hfits hdone⟩

/-- A breaker of a panel is alone.  After whatever acts of clients, the breaker of
each name is where a breaker by itself would be that was built when the name was
first got, with the settings for the name and for the listener of that instant,
and that made the moves addressed to the name since; its responses are the same,
one by one, and they are what clients are told.  A name that was never got has
no breaker. -/
theorem alone_of_run {schedule : List (Instant × Act)} {run : Run}
    (hpanel : Panel.new settings = .ok p) (hfits : ∀ entry ∈ schedule, FitsAll settings entry.1)
    (hrun : p.run schedule = some run) :
    (∀ name, run.Alone settings name) ∧ ∀ s ∈ run.stages, s.Reports := by
  have horderly : run.Orderly settings := by
    refine Engine.foldlM_induction (motive := Run.Orderly settings) ?first ?next hrun
    case first =>
      exact ⟨kept_new hpanel, fun name => ⟨(find?_new hpanel).2 name, rfl⟩, by simp⟩
    case next =>
      intro first entry last h hentry hextend
      obtain ⟨done, hdone, rfl⟩ := Option.map_eq_some_iff.1 hextend
      exact h.snoc (s := { before := first.panel, now := entry.1, act := entry.2, done })
        (hfits entry hentry) rfl hdone
  exact ⟨horderly.alone, horderly.reports⟩

/-- Settings that name one breaker fit when that one's policy and the defaults
do. -/
theorem fitsAll_of_single {limits : Limits} {o : Override} {now : Instant}
    (hdefaults : limits.toPolicy.Fits now) (hnamed : (limits.adjust o).toPolicy.Fits now) :
    FitsAll { defaults := limits, breakers := [o] } now := by
  intro name
  simp only [Settings.limitsFor, List.find?_singleton]
  by_cases hname : o.name == name
  · simp only [hname, if_true]
    exact hnamed
  · simp only [hname]
    exact hdefaults

/-- Two breakers are built one after another, for two listeners of clients, and
their calls overlap.  One of them opens at its first failure, and both are asked
and reset together; the biography of the first holds what was addressed to it,
and the listener is still the one it was built for. -/
theorem alone_of_run_interleaved :
    Panel.new { breakers := [{ name := "sms", minRequests := some 1 }] } =
        .ok { settings := { breakers := [{ name := "sms", minRequests := some 1 }] } } ∧
    (∀ entry ∈ [((0 : Instant), Act.listen (.client 1)), (1, .get "sms"), (2, .listen (.client 2)),
        (3, .get "mail"), (4, .on "sms" .call), (5, .on "mail" .call),
        (6, .on "sms" (.finish false)), (7, .snapshots ["mail", "sms"]),
        (8, .resetAll ["sms", "mail"])],
      FitsAll { breakers := [{ name := "sms", minRequests := some 1 }] } entry.1) ∧
    ∃ run ∈ Panel.run { settings := { breakers := [{ name := "sms", minRequests := some 1 }] } }
        [(0, .listen (.client 1)), (1, .get "sms"), (2, .listen (.client 2)), (3, .get "mail"),
          (4, .on "sms" .call), (5, .on "mail" .call), (6, .on "sms" (.finish false)),
          (7, .snapshots ["mail", "sms"]), (8, .resetAll ["sms", "mail"])],
      run.biography "sms" =
          some { audience := .client 1, born := 1,
                 moves := [(4, .call), (6, .finish false), (7, .query), (8, .reset)] } ∧
        (run.biography "mail").map Biography.audience = some (.client 2) ∧
        ∃ solo ∈ Engine.lifeQuiet "sms" { minRequests := 1 } (.client 1) 1
            [(4, .call), (6, .finish false), (7, .query), (8, .reset)],
          run.panel.find? "sms" = some solo.engine ∧ solo.engine.circuit.generation = 2 := by
  have hnew : Panel.new { breakers := [{ name := "sms", minRequests := some 1 }] } =
      .ok { settings := { breakers := [{ name := "sms", minRequests := some 1 }] } } := by
    have hfaults : Settings.faults { breakers := [{ name := "sms", minRequests := some 1 }] } =
        [] := by decide +kernel
    simp [Panel.new, hfaults]
  have hfits : ∀ entry ∈ [((0 : Instant), Act.listen (.client 1)), (1, .get "sms"),
      (2, .listen (.client 2)), (3, .get "mail"), (4, .on "sms" .call), (5, .on "mail" .call),
      (6, .on "sms" (.finish false)), (7, .snapshots ["mail", "sms"]),
      (8, .resetAll ["sms", "mail"])],
      FitsAll { breakers := [{ name := "sms", minRequests := some 1 }] } entry.1 := by
    simp only [List.forall_mem_cons]
    refine ⟨?_, ?_, ?_, ?_, ?_, ?_, ?_, ?_, ?_, by simp⟩ <;>
      exact fitsAll_of_single (by decide) (by decide)
  obtain ⟨run, hrun, hbiography, hother, hgeneration⟩ :
      ∃ run ∈ Panel.run
          { settings := { breakers := [{ name := "sms", minRequests := some 1 }] } }
          [(0, .listen (.client 1)), (1, .get "sms"), (2, .listen (.client 2)), (3, .get "mail"),
            (4, .on "sms" .call), (5, .on "mail" .call), (6, .on "sms" (.finish false)),
            (7, .snapshots ["mail", "sms"]), (8, .resetAll ["sms", "mail"])],
        run.biography "sms" =
            some { audience := .client 1, born := 1,
                   moves := [(4, .call), (6, .finish false), (7, .query), (8, .reset)] } ∧
          (run.biography "mail").map Biography.audience = some (.client 2) ∧
          (run.panel.find? "sms").map (fun e => e.circuit.generation) = some 2 := by
    decide +kernel
  have halone := (alone_of_run hnew hfits hrun).1 "sms"
  rw [Run.Alone, hbiography] at halone
  obtain ⟨solo, hlife, hfind, -⟩ := halone
  have hpolicy : (Settings.limitsFor { breakers := [{ name := "sms", minRequests := some 1 }] }
      "sms").toPolicy = { minRequests := 1 } := by decide +kernel
  rw [hpolicy] at hlife
  rw [hfind, Option.map_some, Option.some.injEq] at hgeneration
  exact ⟨hnew, hfits, run, hrun, hbiography, hother, solo, hlife, hfind, hgeneration⟩

end

end Breaker.Panel
