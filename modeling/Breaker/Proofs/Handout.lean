import Breaker.Proofs.Panel
import Mathlib.Data.List.Dedup
import Mathlib.Logic.Function.Basic

/-!
# One breaker for a name

Any number of clients may ask a panel for breakers at the same time.  A request
looks the name up, builds a breaker when there is none, and puts it in unless
another has come first; each of these is a turn of its own, and the turns of all
requests may come in any order, with moves on the breakers in between.

A breaker that was built is nothing yet to anyone but the request that built it.
What is handed out is a place on the panel, and two clients have the same breaker
when they have the same place.

* `Desk.turn` is one turn, and `Desk.Turned` the ways it can go;
* `Extends` says that a panel has kept its breakers: each is still in its place,
  under its name, where its own moves have brought it;
* `Desk.Orderly` is the invariant: no name stands twice, and the names on the
  panel are those of requests that have been served or are about to be;
* `one_each_of_run` is the result, and `get_alone` says that a request whose turns
  nobody interrupts is what a panel does when it is asked.
-/

namespace Breaker

/-- How far a request for a breaker has come: not begun, about to look the name
up, about to build, about to put the new breaker in, or about to return a place
of the panel. -/
inductive Getter where
  | idle
  | seeking (name : String)
  | missing (name : String)
  | built (e : Engine)
  | returning (name : String) (place : Nat)

/-- The name that a request is for. -/
def Getter.name? : Getter → Option String
  | .idle => none
  | .seeking name => some name
  | .missing name => some name
  | .built e => some e.name
  | .returning name _ => some name

theorem Getter.name?_eq_none_iff {g : Getter} : g.name? = none ↔ g = .idle := by
  cases g <;> simp [Getter.name?]

/-- Is the request under way, and has it yet to come to the panel? -/
def Getter.isOpen : Getter → Bool
  | .seeking _ | .missing _ | .built _ => true
  | _ => false

/-- A panel with the requests that are under way. -/
structure Desk (ι : Type) where
  panel : Panel
  getter : ι → Getter := fun _ => .idle

/-- What a request came back with. -/
abbrev Served := String × Except Panel.Failure Nat

namespace Desk

/-- A client begins a request, or goes on with it; somebody makes a move on a
breaker, or changes who is told by breakers still to be built. -/
inductive Turn (ι : Type) where
  | ask (i : ι) (name : String)
  | go (i : ι) (now : Instant)
  | move (place : Nat) (now : Instant) (move : Move)
  | listen (audience : Audience)

variable {ι : Type} [DecidableEq ι]

/-- The request of one client comes to stand elsewhere. -/
def set (d : Desk ι) (i : ι) (g : Getter) : Desk ι :=
  { d with getter := Function.update d.getter i g }

/-- One turn, if it is possible, and the request that it ends. -/
def turn (d : Desk ι) : Turn ι → Option (Desk ι × Option Served)
  | .ask i name =>
    match d.getter i with
    | .idle => some (d.set i (.seeking name), none)
    | _ => none
  | .go i now =>
    match d.getter i with
    | .idle => none
    | .seeking name =>
      if name ∈ d.panel.roll then some (d.set i (.returning name (d.panel.roll.idxOf name)), none)
      else some (d.set i (.missing name), none)
    | .missing name =>
      match d.panel.build now name with
      | .ok e => some (d.set i (.built e), none)
      | .error failure => some (d.set i .idle, some (name, .error failure))
    | .built e =>
      let panel := d.panel.insertNew e
      some ({ d with panel }.set i (.returning e.name (panel.roll.idxOf e.name)), none)
    | .returning name place => some (d.set i .idle, some (name, .ok place))
  | .move place now move =>
    d.panel.engines[place]?.bind fun e => (e.step now move).map fun response =>
      ({ d with
          panel := { d.panel with engines := d.panel.engines.set place response.engine } }, none)
  | .listen audience => some ({ d with panel := { d.panel with audience } }, none)

/-- One turn of a run. -/
structure Stage (ι : Type) where
  before : Desk ι
  turn : Turn ι
  after : Desk ι
  served : Option Served

/-- The turns of a run in order, and the desk that the last one left. -/
structure Run (ι : Type) where
  stages : List (Stage ι) := []
  desk : Desk ι

/-- The run with one more turn. -/
def Run.extend (run : Run ι) (t : Turn ι) : Option (Run ι) :=
  (run.desk.turn t).map fun (after, served) =>
    { stages := run.stages ++ [{ before := run.desk, turn := t, after, served }], desk := after }

/-- The run that a schedule of turns makes, if each of them is possible. -/
def run (d : Desk ι) (schedule : List (Turn ι)) : Option (Run ι) :=
  schedule.foldlM Run.extend { desk := d }

/-- What the requests of a run came back with, in order. -/
def Run.served (run : Run ι) : List Served := run.stages.filterMap Stage.served

/-- The name for which a request came back with a breaker, if it did. -/
def gottenBy : Option Served → List String
  | some (name, .ok _) => [name]
  | _ => []

/-- The names for which breakers were handed out, in order. -/
def Run.gotten (run : Run ι) : List String := run.stages.flatMap fun s => gottenBy s.served

/-- The turns of a client's latest request so far. -/
def request (i : ι) (stages : List (Stage ι)) : List (Stage ι) :=
  stages.foldl (fun turns s =>
    match s.turn with
    | .ask j _ => if j = i then [s] else turns
    | .go j _ => if j = i then turns ++ [s] else turns
    | _ => turns) []

/-! ## The ways a turn can go -/

/-- Everything that a turn can do, one case for each way it can go. -/
inductive Turned (d : Desk ι) : Turn ι → Option Served → Desk ι → Prop where
  | asks {i : ι} {name : String} (hidle : d.getter i = .idle) :
      Turned d (.ask i name) none (d.set i (.seeking name))
  | finds {i : ι} {name : String} (now : Instant) (hseeking : d.getter i = .seeking name)
      (hmem : name ∈ d.panel.roll) :
      Turned d (.go i now) none (d.set i (.returning name (d.panel.roll.idxOf name)))
  | misses {i : ι} {name : String} (now : Instant) (hseeking : d.getter i = .seeking name) :
      Turned d (.go i now) none (d.set i (.missing name))
  | builds {i : ι} {name : String} {now : Instant} {e : Engine}
      (hmissing : d.getter i = .missing name) (hbuild : d.panel.build now name = .ok e) :
      Turned d (.go i now) none (d.set i (.built e))
  | fails {i : ι} {name : String} {now : Instant} {failure : Panel.Failure}
      (hmissing : d.getter i = .missing name) (hbuild : d.panel.build now name = .error failure) :
      Turned d (.go i now) (some (name, .error failure)) (d.set i .idle)
  | puts {i : ι} {e : Engine} (now : Instant) (hbuilt : d.getter i = .built e) :
      Turned d (.go i now) none
        ({ d with panel := d.panel.insertNew e }.set i
          (.returning e.name ((d.panel.insertNew e).roll.idxOf e.name)))
  | returns {i : ι} {name : String} {place : Nat} (now : Instant)
      (hreturning : d.getter i = .returning name place) :
      Turned d (.go i now) (some (name, .ok place)) (d.set i .idle)
  | moves {place : Nat} {now : Instant} {move : Move} {e : Engine} {r : Engine.Response}
      (hplace : d.panel.engines[place]? = some e) (hstep : e.step now move = some r) :
      Turned d (.move place now move) none
        { d with panel := { d.panel with engines := d.panel.engines.set place r.engine } }
  | listens (audience : Audience) :
      Turned d (.listen audience) none { d with panel := { d.panel with audience } }

section

variable {d after : Desk ι} {t : Turn ι} {served : Option Served}

theorem turned_of_turn (h : d.turn t = some (after, served)) : d.Turned t served after := by
  cases t with
  | ask i name =>
    simp only [turn] at h
    split at h
    next hidle =>
      cases h
      exact .asks hidle
    · cases h
  | go i now =>
    simp only [turn] at h
    split at h
    · cases h
    next name hseeking =>
      split at h
      next hmem =>
        cases h
        exact .finds now hseeking hmem
      · cases h
        exact .misses now hseeking
    next name hmissing =>
      split at h
      next e hbuild =>
        cases h
        exact .builds hmissing hbuild
      next failure hbuild =>
        cases h
        exact .fails hmissing hbuild
    next e hbuilt =>
      cases h
      exact .puts now hbuilt
    next name place hreturning =>
      cases h
      exact .returns now hreturning
  | move place now move =>
    simp only [turn] at h
    obtain ⟨e, hplace, h⟩ := Option.bind_eq_some_iff.1 h
    obtain ⟨r, hstep, h⟩ := Option.map_eq_some_iff.1 h
    cases h
    exact .moves hplace hstep
  | listen audience =>
    cases h
    exact .listens audience

end

/-! ## What a panel keeps -/

end Desk

namespace Panel

/-- Each breaker of the panel is still in its place, where moves have brought it. -/
def Extends (p p' : Panel) : Prop :=
  ∀ (place : Nat) (e : Engine), p.engines[place]? = some e →
    ∃ moves sub, e.run moves = some sub ∧ sub.engine.name = e.name ∧
      p'.engines[place]? = some sub.engine

theorem extends_self (p : Panel) : p.Extends p :=
  fun _ e hplace => ⟨[], { engine := e }, rfl, rfl, hplace⟩

variable {p q : Panel} {e : Engine} {place : Nat}

theorem Extends.insertNew (h : p.Extends q) (e : Engine) : p.Extends (q.insertNew e) := by
  intro place old hold
  obtain ⟨moves, sub, hrun, hname, hplace⟩ := h place old hold
  refine ⟨moves, sub, hrun, hname, ?_⟩
  rw [Panel.insertNew]
  split
  · exact hplace
  · rw [List.getElem?_append_left (List.getElem?_eq_some_iff.1 hplace).1]
    exact hplace

/-- A breaker that is put back in its place is put back under its name. -/
theorem set_eq_put (hnodup : p.roll.Nodup) {old : Engine} (hplace : p.engines[place]? = some old)
    (hname : e.name = old.name) : { p with engines := p.engines.set place e } = p.put e := by
  obtain ⟨hlt, hold⟩ := List.getElem?_eq_some_iff.1 hplace
  rw [put, Panel.mk.injEq]
  refine ⟨rfl, rfl, List.ext_getElem (by simp) fun k hk _ => ?_⟩
  rw [List.length_set] at hk
  rw [List.getElem_set, List.getElem_map]
  by_cases hsame : place = k
  · subst hsame
    simp [hold, hname]
  · -- Another breaker has another name.
    have hne : p.engines[k].name ≠ e.name := by
      intro heq
      have hlt' : place < p.roll.length := by simpa [roll] using hlt
      have hk' : k < p.roll.length := by simpa [roll] using hk
      have hnames : p.roll[place] = p.roll[k] := by simp [roll, hold, heq, hname]
      exact hsame ((List.Nodup.getElem_inj_iff hnodup).1 hnames)
    simp [hsame, hne]

theorem Extends.set {now : Instant} {move : Move} {r : Engine.Response} (h : p.Extends q)
    (hplace : q.engines[place]? = some e) (hstep : e.step now move = some r) :
    p.Extends { q with engines := q.engines.set place r.engine } := by
  intro other old hold
  obtain ⟨moves, sub, hrun, hname, hother⟩ := h other old hold
  by_cases hsame : place = other
  · subst hsame
    obtain rfl := Option.some.inj (hplace.symm.trans hother)
    refine ⟨_, _, Engine.run_snoc hrun hstep, (Engine.step_took hstep).name_eq.trans hname, ?_⟩
    rw [List.getElem?_set_self (List.getElem?_eq_some_iff.1 hplace).1]
    rfl
  · refine ⟨moves, sub, hrun, hname, ?_⟩
    rw [List.getElem?_set_ne hsame]
    exact hother

end Panel

namespace Desk

/-! ## The invariant -/

@[simp] theorem gottenBy_none : gottenBy none = [] := rfl

@[simp] theorem gottenBy_error (name : String) (failure : Panel.Failure) :
    gottenBy (some (name, .error failure)) = [] := rfl

section

variable {ι : Type} {d : Desk ι}

/-- The name stands on the panel in that place. -/
def Stands (d : Desk ι) (name : String) (place : Nat) : Prop := d.panel.roll[place]? = some name

/-- What ties the requests to the panel, once breakers for the names `gotten` have
been handed out. -/
structure Orderly (settings : Settings) (gotten : List String) (d : Desk ι) : Prop where
  settings_eq : d.panel.settings = settings
  nodup : d.panel.roll.Nodup
  policies : ∀ e ∈ d.panel.engines, e.policy = (settings.limitsFor e.name).toPolicy
  built : ∀ i e, d.getter i = .built e → e.policy = (settings.limitsFor e.name).toPolicy
  returning : ∀ i name place, d.getter i = .returning name place → d.Stands name place
  /-- Whatever was handed out stands on the panel, -/
  present : ∀ name ∈ gotten, name ∈ d.panel.roll
  /-- and whatever stands there was handed out, or is about to be. -/
  accounted : ∀ name ∈ d.panel.roll,
    name ∈ gotten ∨ ∃ i place, d.getter i = .returning name place

theorem orderly_new {p : Panel} (hnone : p.engines = []) :
    ({ panel := p } : Desk ι).Orderly p.settings [] where
  settings_eq := rfl
  nodup := by simp [Panel.roll, hnone]
  policies := by simp [hnone]
  built := nofun
  returning := nofun
  present := nofun
  accounted := by simp [Panel.roll, hnone]

theorem stands_idxOf {p : Panel} {name : String} (h : name ∈ p.roll) :
    p.roll[p.roll.idxOf name]? = some name := by
  have hlt := List.idxOf_lt_length_iff.2 h
  rw [List.getElem?_eq_getElem hlt, List.getElem_idxOf hlt]

theorem Stands.mem {name : String} {place : Nat} (h : d.Stands name place) :
    name ∈ d.panel.roll :=
  List.mem_of_getElem? h

variable {settings : Settings} {gotten : List String}

/-- A breaker makes a move. -/
theorem Orderly.moves (h : d.Orderly settings gotten) {place : Nat} {now : Instant} {move : Move}
    {e : Engine} {r : Engine.Response} (hplace : d.panel.engines[place]? = some e)
    (hstep : e.step now move = some r) :
    ({ d with panel := { d.panel with engines := d.panel.engines.set place r.engine } } :
      Desk ι).Orderly settings gotten := by
  obtain ⟨hname, hpolicy, -⟩ := (Engine.step_took hstep).built e.built_self
  have hput := Panel.set_eq_put h.nodup hplace hname
  rw [hput]
  exact
    { settings_eq := h.settings_eq
      nodup := by
        rw [Panel.roll_put]
        exact h.nodup
      policies := by
        intro old hold
        rw [← hput] at hold
        rcases List.mem_or_eq_of_mem_set hold with hold | rfl
        · exact h.policies old hold
        · rw [hpolicy, hname]
          exact h.policies e (List.mem_of_getElem? hplace)
      built := h.built
      returning := by
        intro i name k hi
        rw [Stands, Panel.roll_put]
        exact h.returning i name k hi
      present := by
        intro name hname
        rw [Panel.roll_put]
        exact h.present name hname
      accounted := by
        intro name hname
        rw [Panel.roll_put] at hname
        exact h.accounted name hname }

/-- Where no request is under way, the names on the panel are those that have been
gotten. -/
theorem Orderly.mem_roll_iff (h : d.Orderly settings gotten) (hidle : ∀ i, d.getter i = .idle)
    (name : String) : name ∈ d.panel.roll ↔ name ∈ gotten := by
  refine ⟨fun hname => (h.accounted name hname).resolve_right ?_, h.present name⟩
  rintro ⟨i, place, hi⟩
  rw [hidle i] at hi
  cases hi

variable [DecidableEq ι] {after : Desk ι} {t : Turn ι} {served : Option Served}

/-- No turn takes a breaker away, or puts another in its place. -/
theorem Turned.extends {p : Panel} (h : d.Turned t served after) (hpanel : p.Extends d.panel) :
    p.Extends after.panel := by
  cases h with
  | puts now hbuilt => exact hpanel.insertNew _
  | moves hplace hstep => exact hpanel.set hplace hstep
  | _ => exact hpanel

/-- A name is in its place for good. -/
theorem Turned.stands (h : d.Turned t served after) {name : String} {place : Nat}
    (hstands : d.Stands name place) : after.Stands name place := by
  obtain ⟨e, hplace, rfl⟩ : ∃ e, d.panel.engines[place]? = some e ∧ e.name = name := by
    simpa [Stands, Panel.roll] using hstands
  obtain ⟨moves, sub, -, hname, hafter⟩ := h.extends (Panel.extends_self d.panel) place e hplace
  simp [Stands, Panel.roll, hafter, hname]

theorem getter_set (d : Desk ι) (i j : ι) (g : Getter) :
    (d.set i g).getter j = if j = i then g else d.getter j :=
  Function.update_apply d.getter i g j

/-- A request that is not about to hand anything out goes on. -/
theorem Orderly.set (h : d.Orderly settings gotten) {i : ι} {g : Getter}
    (hbefore : ∀ name place, d.getter i ≠ .returning name place)
    (hbuilt : ∀ e, g = .built e → e.policy = (settings.limitsFor e.name).toPolicy)
    (hreturning : ∀ name place, g = .returning name place → d.Stands name place) :
    (d.set i g).Orderly settings gotten where
  settings_eq := h.settings_eq
  nodup := h.nodup
  policies := h.policies
  built j e hj := by
    rw [getter_set] at hj
    split at hj
    · exact hbuilt e hj
    · exact h.built j e hj
  returning j name place hj := by
    rw [getter_set] at hj
    split at hj
    · exact hreturning name place hj
    · exact h.returning j name place hj
  present := h.present
  accounted name hname := by
    rcases h.accounted name hname with hgotten | ⟨j, place, hj⟩
    · exact .inl hgotten
    · refine .inr ⟨j, place, ?_⟩
      have hne : j ≠ i := by
        rintro rfl
        exact hbefore name place hj
      rw [getter_set, if_neg hne, hj]

/-- A request puts its breaker in, or finds that another has come first. -/
theorem Orderly.puts (h : d.Orderly settings gotten) {i : ι} {e : Engine}
    (hbuilt : d.getter i = .built e) :
    ({ d with panel := d.panel.insertNew e }.set i
      (.returning e.name ((d.panel.insertNew e).roll.idxOf e.name))).Orderly settings gotten := by
  have hroll : ∀ name, name ∈ (d.panel.insertNew e).roll ↔ name ∈ d.panel.roll ∨ name = e.name := by
    intro name
    rw [Panel.roll_insertNew]
    by_cases hmem : e.name ∈ d.panel.roll
    · rw [if_pos hmem]
      exact ⟨.inl, fun hname => hname.elim id fun heq => heq ▸ hmem⟩
    · rw [if_neg hmem, List.mem_append, List.mem_singleton]
  have hstays : ∀ name place, d.Stands name place →
      (d.panel.insertNew e).roll[place]? = some name := fun name place hstands =>
    (Turned.puts 0 hbuilt).stands hstands
  exact
    { settings_eq := Panel.settings_insertNew.trans h.settings_eq
      nodup := Panel.nodup_insertNew h.nodup
      policies := by
        intro old hold
        rcases Panel.mem_insertNew hold with hold | rfl
        · exact h.policies old hold
        · exact h.built i _ hbuilt
      built := by
        intro j e' hj
        rw [getter_set] at hj
        split at hj
        · cases hj
        · exact h.built j e' hj
      returning := by
        intro j name place hj
        rw [getter_set] at hj
        split at hj
        · cases hj
          exact stands_idxOf ((hroll e.name).2 (.inr rfl))
        · exact hstays name place (h.returning j name place hj)
      present := fun name hname => (hroll name).2 (.inl (h.present name hname))
      accounted := by
        intro name hname
        by_cases hsame : name = e.name
        · exact .inr ⟨i, _, by rw [getter_set, if_pos rfl, hsame]⟩
        · rcases h.accounted name (((hroll name).1 hname).resolve_right hsame) with
            hgotten | ⟨j, place, hj⟩
          · exact .inl hgotten
          · have hne : j ≠ i := by
              rintro rfl
              rw [hbuilt] at hj
              cases hj
            exact .inr ⟨j, place, by rw [getter_set, if_neg hne]; exact hj⟩ }

/-- A request comes back with its breaker. -/
theorem Orderly.returns (h : d.Orderly settings gotten) {i : ι} {name : String} {place : Nat}
    (hreturning : d.getter i = .returning name place) :
    (d.set i .idle).Orderly settings (gotten ++ [name]) where
  settings_eq := h.settings_eq
  nodup := h.nodup
  policies := h.policies
  built j e hj := by
    rw [getter_set] at hj
    split at hj
    · cases hj
    · exact h.built j e hj
  returning j other k hj := by
    rw [getter_set] at hj
    split at hj
    · cases hj
    · exact h.returning j other k hj
  present := by
    rw [List.forall_mem_append, List.forall_mem_singleton]
    exact ⟨h.present, (h.returning i name place hreturning).mem⟩
  accounted other hother := by
    rw [List.mem_append, List.mem_singleton]
    rcases h.accounted other hother with hgotten | ⟨j, k, hj⟩
    · exact .inl (.inl hgotten)
    · by_cases hsame : j = i
      · subst hsame
        obtain ⟨rfl, -⟩ := Getter.returning.inj (hreturning.symm.trans hj)
        exact .inl (.inr rfl)
      · exact .inr ⟨j, k, by rw [getter_set, if_neg hsame, hj]⟩

/-- Every turn keeps the desk in order. -/
theorem Orderly.next (h : d.Orderly settings gotten) (hturn : d.Turned t served after) :
    after.Orderly settings (gotten ++ gottenBy served) := by
  cases hturn with
  | asks hidle =>
    rw [gottenBy_none, List.append_nil]
    exact h.set (by rw [hidle]; nofun) nofun nofun
  | @finds i name now hseeking hmem =>
    rw [gottenBy_none, List.append_nil]
    refine h.set (by rw [hseeking]; nofun) nofun ?_
    rintro _ _ ⟨⟩
    exact stands_idxOf hmem
  | misses now hseeking =>
    rw [gottenBy_none, List.append_nil]
    exact h.set (by rw [hseeking]; nofun) nofun nofun
  | @builds i name now e hmissing hbuild =>
    rw [gottenBy_none, List.append_nil]
    refine h.set (by rw [hmissing]; nofun) ?_ nofun
    rintro _ ⟨⟩
    have hnew := Engine.built_new (Panel.build_eq_ok hbuild)
    rw [hnew.policy_eq, hnew.name_eq, h.settings_eq]
  | fails hmissing hbuild =>
    rw [gottenBy_error, List.append_nil]
    exact h.set (by rw [hmissing]; nofun) nofun nofun
  | puts now hbuilt =>
    rw [gottenBy_none, List.append_nil]
    exact h.puts hbuilt
  | returns now hreturning => exact h.returns hreturning
  | moves hplace hstep =>
    rw [gottenBy_none, List.append_nil]
    exact h.moves hplace hstep
  | listens audience =>
    rw [gottenBy_none, List.append_nil]
    exact { h with }

/-- A request comes back with the place in which its name stands. -/
theorem Orderly.stands_served (h : d.Orderly settings gotten) {name : String} {place : Nat}
    (hturn : d.Turned t (some (name, .ok place)) after) : after.Stands name place := by
  cases hturn with
  | returns now hreturning => exact h.returning _ name place hreturning

/-! ## The course of a request -/

/-- A request is for the name that was asked for, and as long as it hands nothing
out it has left the panel as it was. -/
structure Run.Traced (run : Run ι) : Prop where
  asked : ∀ i name, (run.desk.getter i).name? = some name →
    ∃ s rest, request i run.stages = s :: rest ∧ s.turn = .ask i name
  harmless : ∀ i, (run.desk.getter i).isOpen = true →
    ∀ s ∈ request i run.stages, s.after.panel = s.before.panel

theorem request_ask {i : ι} {name : String} {s : Stage ι} (hs : s.turn = .ask i name)
    (stages : List (Stage ι)) : request i (stages ++ [s]) = [s] := by
  simp [request, List.foldl_append, hs]

theorem request_go {i : ι} {now : Instant} {s : Stage ι} (hs : s.turn = .go i now)
    (stages : List (Stage ι)) : request i (stages ++ [s]) = request i stages ++ [s] := by
  simp [request, List.foldl_append, hs]

theorem request_other {i : ι} {s : Stage ι} (hask : ∀ name, s.turn ≠ .ask i name)
    (hgo : ∀ now, s.turn ≠ .go i now) (stages : List (Stage ι)) :
    request i (stages ++ [s]) = request i stages := by
  rw [request, List.foldl_append, ← request]
  cases hs : s.turn with
  | ask j name => simp [hs, show j ≠ i from fun heq => hask name (heq ▸ hs)]
  | go j now => simp [hs, show j ≠ i from fun heq => hgo now (heq ▸ hs)]
  | _ => simp [hs]

/-- A request goes on under its name, and is open no longer than the panel is as
it was. -/
theorem Turned.go (h : d.Turned t served after) {i : ι} {now : Instant} (ht : t = .go i now) :
    (∀ name, (after.getter i).name? = some name → (d.getter i).name? = some name) ∧
      ((after.getter i).isOpen = true → (d.getter i).isOpen = true ∧ after.panel = d.panel) := by
  cases h with
  | asks hidle => cases ht
  | moves hplace hstep => cases ht
  | listens audience => cases ht
  | @finds j name now' hseeking hmem =>
    cases ht
    rw [getter_set, if_pos rfl, hseeking]
    exact ⟨fun _ h => h, nofun⟩
  | @misses j name now' hseeking =>
    cases ht
    rw [getter_set, if_pos rfl, hseeking]
    exact ⟨fun _ h => h, fun _ => ⟨rfl, rfl⟩⟩
  | @builds j name now' e hmissing hbuild =>
    cases ht
    have hname : e.name = name := (Engine.built_new (Panel.build_eq_ok hbuild)).name_eq
    rw [getter_set, if_pos rfl, hmissing]
    exact ⟨fun _ h => hname ▸ h, fun _ => ⟨rfl, rfl⟩⟩
  | fails hmissing hbuild =>
    cases ht
    rw [getter_set, if_pos rfl]
    exact ⟨nofun, nofun⟩
  | @puts j e now' hbuilt =>
    cases ht
    rw [getter_set, if_pos rfl, hbuilt]
    exact ⟨fun _ h => h, nofun⟩
  | returns now' hreturning =>
    cases ht
    rw [getter_set, if_pos rfl]
    exact ⟨nofun, nofun⟩

/-- A client asks. -/
theorem Turned.ask (h : d.Turned t served after) {i : ι} {name : String} (ht : t = .ask i name) :
    (after.getter i).name? = some name ∧ after.panel = d.panel := by
  cases h with
  | asks hidle =>
    cases ht
    rw [getter_set, if_pos rfl]
    exact ⟨rfl, rfl⟩
  | _ => cases ht

/-- The other requests stand where they stood. -/
theorem Turned.others (h : d.Turned t served after) {i : ι} (hask : ∀ name, t ≠ .ask i name)
    (hgo : ∀ now, t ≠ .go i now) : after.getter i = d.getter i := by
  -- Whoever has the turn is another client.
  have hne : ∀ j : ι, ((∃ name, t = .ask j name) ∨ ∃ now, t = .go j now) → i ≠ j := by
    rintro j (⟨name, ht⟩ | ⟨now, ht⟩) rfl
    · exact hask name ht
    · exact hgo now ht
  cases h with
  | moves hplace hstep => rfl
  | listens audience => rfl
  | asks hidle => rw [getter_set, if_neg (hne _ (.inl ⟨_, rfl⟩))]
  | finds now hseeking hmem => rw [getter_set, if_neg (hne _ (.inr ⟨_, rfl⟩))]
  | misses now hseeking => rw [getter_set, if_neg (hne _ (.inr ⟨_, rfl⟩))]
  | builds hmissing hbuild => rw [getter_set, if_neg (hne _ (.inr ⟨_, rfl⟩))]
  | fails hmissing hbuild => rw [getter_set, if_neg (hne _ (.inr ⟨_, rfl⟩))]
  | puts now hbuilt => rw [getter_set, if_neg (hne _ (.inr ⟨_, rfl⟩))]
  | returns now hreturning => rw [getter_set, if_neg (hne _ (.inr ⟨_, rfl⟩))]

/-- The run with one more turn. -/
def Run.snoc (run : Run ι) (s : Stage ι) : Run ι :=
  { stages := run.stages ++ [s], desk := s.after }

theorem Run.Traced.snoc {run : Run ι} {s : Stage ι} (h : run.Traced)
    (hbefore : run.desk = s.before) (hturn : s.before.Turned s.turn s.served s.after) :
    (run.snoc s).Traced := by
  rw [← hbefore] at hturn
  -- One client has the turn, if it is a turn of a request at all.
  have hcases : ∀ i, (∃ name, s.turn = .ask i name) ∨ (∃ now, s.turn = .go i now) ∨
      (∀ name, s.turn ≠ .ask i name) ∧ ∀ now, s.turn ≠ .go i now := by
    intro i
    by_cases hask : ∃ name, s.turn = .ask i name
    · exact .inl hask
    · by_cases hgo : ∃ now, s.turn = .go i now
      · exact .inr (.inl hgo)
      · exact .inr (.inr ⟨not_exists.1 hask, not_exists.1 hgo⟩)
  refine ⟨fun i name hname => ?_, fun i hopen => ?_⟩
  · rcases hcases i with ⟨other, hs⟩ | ⟨now, hs⟩ | ⟨hask, hgo⟩
    · obtain rfl := Option.some.inj ((hturn.ask hs).1.symm.trans hname)
      exact ⟨s, [], request_ask hs _, hs⟩
    · obtain ⟨first, rest, hrequest, hfirst⟩ := h.asked i name ((hturn.go hs).1 name hname)
      exact ⟨first, rest ++ [s], by rw [Run.snoc, request_go hs, hrequest, List.cons_append],
        hfirst⟩
    · rw [Run.snoc, hturn.others hask hgo] at hname
      rw [Run.snoc, request_other hask hgo]
      exact h.asked i name hname
  · rcases hcases i with ⟨other, hs⟩ | ⟨now, hs⟩ | ⟨hask, hgo⟩
    · rw [Run.snoc, request_ask hs, List.forall_mem_singleton, ← hbefore]
      exact (hturn.ask hs).2
    · obtain ⟨hstill, hpanel⟩ := (hturn.go hs).2 hopen
      rw [Run.snoc, request_go hs, List.forall_mem_append, List.forall_mem_singleton, ← hbefore]
      exact ⟨h.harmless i hstill, hpanel⟩
    · rw [Run.snoc, hturn.others hask hgo] at hopen
      rw [Run.snoc, request_other hask hgo]
      exact h.harmless i hopen

/-- The request that comes back had asked for the name, and unless it comes back
with a breaker, it has left the panel as it was. -/
def Run.Answers (run : Run ι) : Prop :=
  ∀ (earlier : List (Stage ι)) (last : Stage ι) (i : ι) (now : Instant) (name : String)
    (outcome : Except Panel.Failure Nat),
    run.stages = earlier ++ [last] → last.turn = .go i now →
    last.served = some (name, outcome) →
    (∃ s rest, request i run.stages = s :: rest ∧ s.turn = .ask i name) ∧
      ∀ failure, outcome = .error failure →
        ∀ s ∈ request i run.stages, s.after.panel = s.before.panel

theorem Run.Traced.answers {run : Run ι} {s : Stage ι} (h : run.Traced)
    (hbefore : run.desk = s.before) (hturn : s.before.Turned s.turn s.served s.after) :
    (run.snoc s).Answers := by
  intro earlier last i now name outcome hstages hgo hserved
  obtain ⟨rfl, hlast⟩ := List.append_inj' hstages rfl
  obtain rfl := List.singleton_inj.1 hlast
  rw [hgo, hserved, ← hbefore] at hturn
  rw [Run.snoc, request_go hgo]
  generalize hafter : s.after = after at hturn
  cases hturn with
  | fails hmissing hbuild =>
    obtain ⟨first, rest, hrequest, hfirst⟩ := h.asked i name (by rw [hmissing]; rfl)
    refine ⟨⟨first, rest ++ [s], by rw [hrequest, List.cons_append], hfirst⟩, fun _ _ => ?_⟩
    rw [List.forall_mem_append, List.forall_mem_singleton, hafter, ← hbefore]
    exact ⟨h.harmless i (by rw [hmissing]; rfl), rfl⟩
  | returns now hreturning =>
    obtain ⟨first, rest, hrequest, hfirst⟩ := h.asked i name (by rw [hreturning]; rfl)
    exact ⟨⟨first, rest ++ [s], by rw [hrequest, List.cons_append], hfirst⟩, nofun⟩

/-! ## Runs -/

/-- What holds of a desk in the course of a run. -/
structure Run.Sound (settings : Settings) (run : Run ι) : Prop where
  orderly : run.desk.Orderly settings run.gotten
  traced : run.Traced
  answers : run.Answers
  stands : ∀ name place, (name, .ok place) ∈ run.served → run.desk.Stands name place

theorem Run.Sound.snoc {run : Run ι} {s : Stage ι} (h : run.Sound settings)
    (hbefore : run.desk = s.before) (hturn : s.before.Turned s.turn s.served s.after) :
    (run.snoc s).Sound settings where
  orderly := by
    have hgotten : (run.snoc s).gotten = run.gotten ++ gottenBy s.served := by
      simp [Run.gotten, Run.snoc, List.flatMap_append]
    rw [hgotten]
    exact Orderly.next (hbefore ▸ h.orderly) hturn
  traced := h.traced.snoc hbefore hturn
  answers := h.traced.answers hbefore hturn
  stands name place hserved := by
    have hold : ∀ name place, (name, .ok place) ∈ run.served → s.after.Stands name place :=
      fun name place hmem => hturn.stands (hbefore ▸ h.stands name place hmem)
    rw [Run.served, Run.snoc, List.filterMap_append, List.mem_append] at hserved
    rcases hserved with hserved | hserved
    · exact hold name place hserved
    · have hlast : s.served = some (name, .ok place) := by simpa using hserved
      exact Orderly.stands_served (hbefore ▸ h.orderly) (hlast ▸ hturn)

theorem sound_of_run {p : Panel} {schedule : List (Turn ι)} {run : Run ι}
    (hpanel : Panel.new settings = .ok p) (hrun : Desk.run { panel := p } schedule = some run) :
    run.Sound settings := by
  refine Engine.foldlM_induction (motive := Run.Sound settings) ?first ?next hrun
  case first =>
    obtain ⟨rfl, -⟩ := Panel.find?_new hpanel
    exact
      { orderly := orderly_new (p := { settings }) rfl
        traced := ⟨nofun, nofun⟩
        answers := fun earlier last i now name outcome hstages => by simp at hstages
        stands := nofun }
  case next =>
    intro first t last h _ hextend
    obtain ⟨⟨after, served⟩, hturn, rfl⟩ := Option.map_eq_some_iff.1 hextend
    exact h.snoc (s := { before := first.desk, turn := t, after, served }) rfl
      (turned_of_turn hturn)

/-- Whatever comes later, the panel keeps its breakers. -/
theorem extends_of_run {start : Desk ι} {schedule more : List (Turn ι)} {run later : Run ι}
    (hrun : start.run schedule = some run) (hlater : start.run (schedule ++ more) = some later) :
    run.desk.panel.Extends later.desk.panel := by
  rw [Desk.run, List.foldlM_append, ← Desk.run, hrun] at hlater
  refine Engine.foldlM_induction (motive := fun later => run.desk.panel.Extends later.desk.panel)
    (Panel.extends_self _) ?_ hlater
  intro first t last h _ hextend
  obtain ⟨⟨after, served⟩, hturn, rfl⟩ := Option.map_eq_some_iff.1 hextend
  exact (turned_of_turn hturn).extends h

/-- There is one breaker for a name, and all requests for the name get it. -/
structure Run.OneEach (settings : Settings) (run : Run ι) : Prop where
  /-- Whoever was served has the place in which the breaker of the name is found. -/
  handed : ∀ name place, (name, .ok place) ∈ run.served →
    ∃ e, run.desk.panel.engines[place]? = some e ∧ run.desk.panel.find? name = some e
  unique : ∀ name place place', (name, .ok place) ∈ run.served →
    (name, .ok place') ∈ run.served → place = place'
  answers : run.Answers
  /-- Where no request is under way, the panel has as many breakers as names have
  been gotten, -/
  size_eq : (∀ i, run.desk.getter i = .idle) → run.desk.panel.size = run.gotten.dedup.length
  isEmpty_iff : (∀ i, run.desk.getter i = .idle) →
    (run.desk.panel.engines.isEmpty = true ↔ run.gotten = [])
  /-- and lists each of these names once, in ascending order, in whatever order the
  breakers are asked. -/
  listing : (∀ i, run.desk.getter i = .idle) → ∀ now order, Panel.FitsAll settings now →
    order.Perm run.desk.panel.roll → ∃ p' views responses,
      run.desk.panel.act now (.snapshots order) =
          some { panel := p', answer := .listing views, responses } ∧
        (views.map Prod.fst).Pairwise (· < ·) ∧
        ∀ name, name ∈ views.map Prod.fst ↔ name ∈ run.gotten

theorem Run.Sound.oneEach {run : Run ι} (h : run.Sound settings) : run.OneEach settings where
  handed name place hserved := by
    have hstands := h.stands name place hserved
    obtain ⟨e, hplace, rfl⟩ : ∃ e, run.desk.panel.engines[place]? = some e ∧ e.name = name := by
      simpa [Stands, Panel.roll] using hstands
    exact ⟨e, hplace, Panel.find?_of_mem h.orderly.nodup (List.mem_of_getElem? hplace)⟩
  unique name place place' hserved hserved' := by
    obtain ⟨hlt, hname⟩ := List.getElem?_eq_some_iff.1 (h.stands name place hserved)
    obtain ⟨hlt', hname'⟩ := List.getElem?_eq_some_iff.1 (h.stands name place' hserved')
    exact (List.Nodup.getElem_inj_iff h.orderly.nodup).1 (hname.trans hname'.symm)
  answers := h.answers
  size_eq hidle := by
    have hperm : run.desk.panel.roll.Perm run.gotten.dedup :=
      (List.perm_ext_iff_of_nodup h.orderly.nodup (List.nodup_dedup _)).2 fun name => by
        rw [h.orderly.mem_roll_iff hidle, List.mem_dedup]
    rw [← hperm.length_eq, Panel.roll, List.length_map, Panel.size]
  isEmpty_iff hidle := by
    have hnames : run.desk.panel.roll = [] ↔ run.gotten = [] := by
      rw [List.eq_nil_iff_forall_not_mem, List.eq_nil_iff_forall_not_mem]
      exact forall_congr' fun name => not_congr (h.orderly.mem_roll_iff hidle name)
    rw [← hnames, List.isEmpty_iff, Panel.roll, List.map_eq_nil_iff]
  listing hidle now order hfits hperm := by
    have hpolicies : ∀ name e, run.desk.panel.find? name = some e → e.policy.Fits now := by
      intro name e hfind
      rw [h.orderly.policies e (List.mem_of_find?_eq_some hfind)]
      exact hfits e.name
    obtain ⟨p', views, responses, hact, hsorted, hviews⟩ :=
      Panel.act_listing hperm h.orderly.nodup hpolicies
    refine ⟨p', views, responses, hact, hsorted, fun name => ?_⟩
    rw [hviews.mem_iff, h.orderly.mem_roll_iff hidle]

/-- There is one breaker for a name.  However the turns of requests interleave,
also with moves on the breakers: every request that is served gets the place of
the one breaker of its name, which stays in its place for good; a request that is
refused has left the panel as it was; and where no request is under way, the panel
counts and lists exactly the names that have been gotten. -/
theorem one_each_of_run {p : Panel} {schedule : List (Turn ι)} {run : Run ι}
    (hpanel : Panel.new settings = .ok p) (hrun : Desk.run { panel := p } schedule = some run) :
    run.OneEach settings ∧ ∀ more later, Desk.run { panel := p } (schedule ++ more) = some later →
      run.desk.panel.Extends later.desk.panel :=
  ⟨(sound_of_run hpanel hrun).oneEach, fun _ _ hlater => extends_of_run hrun hlater⟩

/-- Two clients look the same name up before there is a breaker, both build one,
and both are handed the one that came first.  Later one of them is refused a
breaker with a blank name, while the first breaker makes a move and the other
client gets a second one. -/
theorem one_each_of_run_racing :
    Panel.new {} = .ok { settings := {} } ∧
    ∃ run ∈ Desk.run { panel := { settings := {} } }
        [.ask false "sms", .ask true "sms", .go false 1, .go true 1, .go false 2, .go true 3,
          .go true 4, .go false 4, .go false 5, .go true 5],
      ∃ later ∈ Desk.run { panel := { settings := {} } }
          ([.ask false "sms", .ask true "sms", .go false 1, .go true 1, .go false 2, .go true 3,
            .go true 4, .go false 4, .go false 5, .go true 5] ++
          [.ask true "", .ask false "mail", .go true 6, .move 0 7 .call, .go false 7, .go true 8,
            .go false 8, .go false 9, .go false 9]),
        run.gotten = ["sms", "sms"] ∧ run.desk.panel.size = 1 ∧
        later.gotten = ["sms", "sms", "mail"] ∧ later.desk.panel.size = 2 ∧
        later.served.length = 4 ∧ run.desk.panel.Extends later.desk.panel := by
  have hnew : Panel.new {} = .ok { settings := {} } := by
    have hfaults : Settings.faults {} = [] := by decide +kernel
    simp [Panel.new, hfaults]
  obtain ⟨run, hrun, later, hlater, hgotten, hidle, hgotten', hidle', hlength⟩ :
      ∃ run ∈ Desk.run { panel := { settings := {} } }
          [.ask false "sms", .ask true "sms", .go false 1, .go true 1, .go false 2, .go true 3,
            .go true 4, .go false 4, .go false 5, .go true 5],
        ∃ later ∈ Desk.run { panel := { settings := {} } }
            ([.ask false "sms", .ask true "sms", .go false 1, .go true 1, .go false 2,
              .go true 3, .go true 4, .go false 4, .go false 5, .go true 5] ++
            [.ask true "", .ask false "mail", .go true 6, .move 0 7 .call, .go false 7,
              .go true 8, .go false 8, .go false 9, .go false 9]),
          run.gotten = ["sms", "sms"] ∧ (∀ i, (run.desk.getter i).name? = none) ∧
          later.gotten = ["sms", "sms", "mail"] ∧ (∀ i, (later.desk.getter i).name? = none) ∧
          later.served.length = 4 := by
    decide +kernel
  have hfirst := one_each_of_run hnew hrun
  have hsecond := one_each_of_run hnew hlater
  have hsize := hfirst.1.size_eq fun i => Getter.name?_eq_none_iff.1 (hidle i)
  have hsize' := hsecond.1.size_eq fun i => Getter.name?_eq_none_iff.1 (hidle' i)
  rw [hgotten] at hsize
  rw [hgotten'] at hsize'
  exact ⟨hnew, run, hrun, later, hlater, hgotten, hsize.trans (by decide), hgotten',
    hsize'.trans (by decide), hlength, hfirst.2 _ later hlater⟩

/-! ## One client alone -/

/-- The turns of one request, without others in between, are what a panel does
when it is asked. -/
theorem get_alone {i : ι} (hidle : d.getter i = .idle) (now : Instant) (name : String) :
    ∃ count, (d.run (.ask i name :: List.replicate count (.go i now))).map
        (fun run => (run.desk, run.served)) =
      some (match d.panel.get now name with
        | .ok (p, _) => ({ d with panel := p }, [(name, .ok (p.roll.idxOf name))])
        | .error failure => (d, [(name, .error failure)])) := by
  have hrestore : Function.update d.getter i Getter.idle = d.getter := by
    rw [← hidle, Function.update_eq_self]
  cases hfind : d.panel.find? name with
  | some e =>
    have hmem : name ∈ d.panel.roll := Panel.mem_roll_iff.2 ⟨e, hfind⟩
    refine ⟨2, ?_⟩
    simp [Desk.run, Run.extend, Run.served, turn, set, Panel.get, hidle, hfind, hmem, hrestore]
  | none =>
    have hmem : name ∉ d.panel.roll := Panel.find?_eq_none_iff.1 hfind
    cases hbuild : d.panel.build now name with
    | ok e =>
      have hname : e.name = name := (Engine.built_new (Panel.build_eq_ok hbuild)).name_eq
      refine ⟨4, ?_⟩
      simp [Desk.run, Run.extend, Run.served, turn, set, Panel.get, Except.map, hidle, hfind,
        hmem, hbuild, hname, hrestore]
    | error failure =>
      refine ⟨2, ?_⟩
      simp [Desk.run, Run.extend, Run.served, turn, set, Panel.get, Except.map, hidle, hfind,
        hmem, hbuild, hrestore]

/-- A move on the breaker in a place is one on the breaker of its name. -/
theorem move_eq_step (hnodup : d.panel.roll.Nodup) {place : Nat} {e : Engine}
    (hplace : d.panel.engines[place]? = some e) (now : Instant) (move : Move) :
    d.turn (.move place now move) =
      (d.panel.step now e.name move).map fun (panel, _) => ({ d with panel }, none) := by
  have hfind := Panel.find?_of_mem hnodup (List.mem_of_getElem? hplace)
  simp only [turn, hplace, Option.bind_some, Panel.step, hfind]
  cases hstep : e.step now move with
  | none => simp [hstep]
  | some r =>
    have hname : r.engine.name = e.name := (Engine.step_took hstep).name_eq
    simp [hstep, Panel.set_eq_put hnodup hplace hname]

end

end Desk

end Breaker
