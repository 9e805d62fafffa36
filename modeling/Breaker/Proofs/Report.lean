import Breaker.Report
import Breaker.Proofs.Faults
import Breaker.Proofs.Renewal
import Breaker.Proofs.Solo

/-!
# The report of settings shows what runs

The report fills in every override by itself, and a panel looks for the first
override of a name.  The two agree where no name stands twice, which settings
without faults promise.

* `Report.read?` reads the limits back from a report, by the names of its members,
  and `read?_check` says that they are all there;
* `limitsFor_of_mem` and `limitsFor_of_notMem` say what a panel finds for a name;
* `Panel.Yields` says with which limits a panel hands out a breaker, and
  `yields_of_kept` that these are the limits for its name;
* `yields_reported` is the result: what is shown is what is handed out.
-/

namespace Breaker

/-! ## Reading a report -/

namespace Json

/-- The member of that name. -/
def member? (name : String) : Json → Option Json
  | .record members => members.lookup name
  | _ => none

/-- The whole number that a value is. -/
def number? : Json → Option Nat
  | .number n => some n
  | _ => none

/-- The rate that a value is. -/
def rate? : Json → Option Binary64
  | .rate x => some x
  | _ => none

/-- The text that a value is. -/
def text? : Json → Option String
  | .text s => some s
  | _ => none

/-- The items of a list. -/
def items? : Json → Option (List Json)
  | .list items => some items
  | _ => none

variable {m : String × Json} {members : List (String × Json)} {name : String}

theorem names_insertMember : ((insertMember m members).map Prod.fst).Perm
    (m.1 :: members.map Prod.fst) := by
  induction members with
  | nil => exact .refl _
  | cons n rest ih =>
    rw [insertMember]
    split
    · exact .refl _
    · exact (ih.cons n.1).trans (.swap m.1 n.1 _)

/-- A member of a new name is found after it was put where it belongs, and the
others are found as before. -/
theorem lookup_insertMember (hnew : m.1 ∉ members.map Prod.fst) :
    (insertMember m members).lookup name = (m :: members).lookup name := by
  induction members with
  | nil => rfl
  | cons n rest ih =>
    rw [List.map_cons, List.mem_cons, not_or] at hnew
    obtain ⟨hne, hrest⟩ := hnew
    rw [insertMember]
    split
    · rfl
    · rw [List.lookup_cons, ih hrest, List.lookup_cons, List.lookup_cons, List.lookup_cons]
      by_cases hname : name = n.1
      · have hother : (name == m.1) = false := beq_eq_false_iff_ne.2 (hname ▸ Ne.symm hne)
        simp only [hother]
      · have hother : (name == n.1) = false := beq_eq_false_iff_ne.2 hname
        simp only [hother]

/-- Sorting the members of a record hides none of them. -/
theorem member?_object (hnodup : (members.map Prod.fst).Nodup) :
    (object members).member? name = members.lookup name := by
  have hsorted : ((members.foldr insertMember []).map Prod.fst).Perm (members.map Prod.fst) ∧
      (members.foldr insertMember []).lookup name = members.lookup name := by
    induction members with
    | nil => exact ⟨.refl _, rfl⟩
    | cons m rest ih =>
      obtain ⟨hfirst, hrest⟩ := List.nodup_cons.1 hnodup
      obtain ⟨hnames, hlookup⟩ := ih hrest
      rw [List.foldr_cons]
      refine ⟨names_insertMember.trans (hnames.cons m.1), ?_⟩
      rw [lookup_insertMember fun hmem => hfirst (hnames.mem_iff.1 hmem), List.lookup_cons,
        List.lookup_cons, hlookup]
  exact hsorted.2

end Json

namespace Report

/-- The limits that a record shows. -/
def limits? (j : Json) : Option Limits := do
  let probeLimit ← (← j.member? "probe_limit").number?
  let closedWindowSecs ← (← j.member? "closed_window_secs").number?
  let openDurationSecs ← (← j.member? "open_duration_secs").number?
  let threshold ← (← j.member? "failure_rate_threshold").rate?
  let minRequests ← (← j.member? "min_requests").number?
  pure { probeLimit, closedWindowSecs, openDurationSecs, threshold, minRequests }

/-- The breaker that a record shows, with its limits. -/
def breaker? (j : Json) : Option (String × Limits) := do
  let name ← (← j.member? "name").text?
  let limits ← limits? j
  pure (name, limits)

/-- The defaults and the breakers that a report of settings shows, in order. -/
def read? (report : Json) : Option (Limits × List (String × Limits)) := do
  let defaults ← limits? (← report.member? "defaults")
  let items ← (← report.member? "breakers").items?
  let breakers ← items.mapM breaker?
  pure (defaults, breakers)

theorem limits?_members (limits : Limits) : limits? (.object limits.members) = some limits := by
  have hnodup : (limits.members.map Prod.fst).Nodup := by simp [Limits.members]
  simp only [limits?, Json.member?_object hnodup]
  simp [Limits.members, Json.number?, Json.rate?, List.lookup_cons]

theorem breaker?_members (name : String) (limits : Limits) :
    breaker? (.object (("name", .text name) :: limits.members)) = some (name, limits) := by
  have hnodup : ((("name", Json.text name) :: limits.members).map Prod.fst).Nodup := by
    simp [Limits.members]
  simp only [breaker?, limits?, Json.member?_object hnodup]
  simp [Limits.members, Json.number?, Json.rate?, Json.text?, List.lookup_cons]

/-- The report shows the defaults, and every breaker of the file with its limits
filled in. -/
theorem read?_check (settings : Settings) :
    read? (check settings) = some (settings.defaults, settings.effective) := by
  have hbreakers : (settings.effective.map fun entry => Json.object
      (("name", .text entry.1) :: entry.2.members)).mapM breaker? = some settings.effective := by
    generalize settings.effective = entries
    induction entries with
    | nil => rfl
    | cons entry entries ih =>
      rw [List.map_cons, List.mapM_cons, breaker?_members, ih]
      rfl
  have hnodup : ([("defaults", Json.object settings.defaults.members),
      ("breakers", .list (settings.effective.map fun entry =>
        .object (("name", .text entry.1) :: entry.2.members)))].map Prod.fst).Nodup := by simp
  simp only [read?, check, Json.member?_object hnodup]
  simp [List.lookup_cons, limits?_members, Json.items?, hbreakers]

end Report

/-! ## The limits for a name -/

namespace Settings

variable {settings : Settings} {name : String} {o : Override}

/-- Where no name stands twice, an override is the first of its name. -/
theorem limitsFor_of_mem (hdistinct : (settings.breakers.map Override.name).Nodup)
    (hmem : o ∈ settings.breakers) :
    settings.limitsFor o.name = settings.defaults.adjust o := by
  have hfind : settings.breakers.find? (·.name == o.name) = some o := by
    have hsome : (settings.breakers.find? (·.name == o.name)).isSome := by
      rw [List.find?_isSome]
      exact ⟨o, hmem, beq_self_eq_true o.name⟩
    obtain ⟨first, hfirst⟩ := Option.isSome_iff_exists.1 hsome
    have hname : first.name = o.name := by simpa using List.find?_some hfirst
    rw [hfirst, List.inj_on_of_nodup_map hdistinct (List.mem_of_find?_eq_some hfirst) hmem hname]
  rw [limitsFor, hfind]

theorem limitsFor_of_notMem (hname : name ∉ settings.breakers.map Override.name) :
    settings.limitsFor name = settings.defaults := by
  have hfind : settings.breakers.find? (·.name == name) = none := by
    rw [List.find?_eq_none]
    intro o hmem heq
    exact hname (List.mem_map.2 ⟨o, hmem, by simpa using heq⟩)
  rw [limitsFor, hfind]

/-- The two ways to the limits of a breaker agree where no name stands twice. -/
theorem effective_eq (hdistinct : (settings.breakers.map Override.name).Nodup) :
    settings.effective = settings.breakers.map fun o => (o.name, settings.limitsFor o.name) := by
  refine List.map_congr_left fun o hmem => ?_
  rw [limitsFor_of_mem hdistinct hmem]

/-- Of usable settings no limits are at fault, whatever name they are for. -/
theorem Usable.faults_limitsFor (h : settings.Usable) (hname : Text.isBlank name = false) :
    (settings.limitsFor name).toPolicy.faults name = [] := by
  rw [Policy.faults_eq_nil_iff]
  refine ⟨hname, ?_⟩
  by_cases hmem : name ∈ settings.breakers.map Override.name
  · obtain ⟨o, ho, rfl⟩ := List.mem_map.1 hmem
    rw [limitsFor_of_mem h.distinct ho]
    exact ⟨h.probeLimits o ho, h.thresholds o ho⟩
  · rw [limitsFor_of_notMem hmem]
    exact ⟨h.probeLimit, h.threshold⟩

end Settings

/-! ## What a panel hands out -/

namespace Panel

variable {settings : Settings} {p : Panel} {name : String} {now : Instant}

/-- A panel that is asked for the breaker of that name has one, and its policy is
made of these limits; a second of the limits has a billion nanoseconds. -/
def Yields (p : Panel) (now : Instant) (name : String) (limits : Limits) : Prop :=
  ∃ p' isNew e, p.get now name = .ok (p', isNew) ∧ p'.find? name = some e ∧
    e.policy =
      { probeLimit := limits.probeLimit
        closedWindow := limits.closedWindowSecs * 1000000000
        openDuration := limits.openDurationSecs * 1000000000
        threshold := limits.threshold
        minRequests := limits.minRequests }

/-- The panel of a run keeps its settings, and its breakers are made from them. -/
theorem kept_of_run {schedule : List (Instant × Act)} {run : Run}
    (hpanel : Panel.new settings = .ok p) (hfits : ∀ entry ∈ schedule, FitsAll settings entry.1)
    (hrun : p.run schedule = some run) : Kept settings run.panel := by
  refine Engine.foldlM_induction (motive := fun run : Run => Kept settings run.panel)
    ?first ?next hrun
  case first => exact kept_new hpanel
  case next =>
    intro first entry last h hentry hextend
    obtain ⟨done, hdone, rfl⟩ := Option.map_eq_some_iff.1 hextend
    exact h.next (s := { before := first.panel, now := entry.1, act := entry.2, done })
      (hfits entry hentry) hdone

/-- A panel hands out breakers with the limits for their names. -/
theorem yields_of_kept (h : Kept settings p) (hfits : FitsAll settings now)
    (hfaults : (settings.limitsFor name).toPolicy.faults name = []) :
    p.Yields now name (settings.limitsFor name) := by
  cases hfind : p.find? name with
  | some e =>
    obtain ⟨audience, hresting⟩ := h.resting name e hfind
    exact ⟨p, false, e, by simp [get, hfind], hfind, hresting.policy_eq⟩
  | none =>
    have hnew := Engine.new?_of_fits name p.audience (hfits name)
    obtain ⟨e, hbuild, hname, hpolicy⟩ : ∃ e, p.build now name = .ok e ∧ e.name = name ∧
        e.policy = (settings.limitsFor name).toPolicy := by
      simp only [build, h.settings_eq, hfaults, List.isEmpty_nil, if_true, hnew]
      exact ⟨_, rfl, rfl, rfl⟩
    have hget : p.get now name = .ok (p.insertNew e, true) := by
      simp only [get, hfind, hbuild]
      rfl
    refine ⟨_, true, e, hget, ?_, hpolicy⟩
    rw [find?_insertNew, if_pos hname.symm, hfind]
    rfl

/-- What is shown is what runs.  The report of settings without faults shows the
defaults, and every breaker of the file once and in order, with the limits that
are found for its name.  A panel can be made of the settings, and whatever
clients have done with it, it hands out each breaker of the report with the
limits shown, and a breaker of any other name with the defaults. -/
theorem yields_reported (hfaults : settings.faults = []) :
    Report.read? (Report.check settings) = some (settings.defaults, settings.effective) ∧
      settings.effective =
        (settings.breakers.map fun o => (o.name, settings.limitsFor o.name)) ∧
      (settings.effective.map Prod.fst).Nodup ∧
      ∃ p, Panel.new settings = .ok p ∧
        ∀ schedule run now, p.run schedule = some run →
          (∀ entry ∈ schedule, FitsAll settings entry.1) → FitsAll settings now →
          (∀ entry ∈ settings.effective, run.panel.Yields now entry.1 entry.2) ∧
          ∀ name ∉ settings.effective.map Prod.fst, Text.isBlank name = false →
            run.panel.Yields now name settings.defaults := by
  have husable := Settings.faults_eq_nil_iff.1 hfaults
  have heffective := Settings.effective_eq husable.distinct
  have hnames : settings.effective.map Prod.fst = settings.breakers.map Override.name := by
    rw [Settings.effective, List.map_map]
    rfl
  have hpanel : Panel.new settings = .ok { settings } := by simp [Panel.new, hfaults]
  refine ⟨Report.read?_check settings, heffective, hnames ▸ husable.distinct, _, hpanel, ?_⟩
  intro schedule run now hrun hschedule hnow
  have hkept := kept_of_run hpanel hschedule hrun
  constructor
  · intro entry hentry
    rw [heffective] at hentry
    obtain ⟨o, ho, rfl⟩ := List.mem_map.1 hentry
    have hnamed := Text.isBlank_eq_false_iff.2 (husable.named o ho)
    exact yields_of_kept hkept hnow (husable.faults_limitsFor hnamed)
  · intro name hother hnamed
    rw [hnames] at hother
    rw [← Settings.limitsFor_of_notMem hother]
    exact yields_of_kept hkept hnow (husable.faults_limitsFor hnamed)

/-- Settings fit when the policies of the report do. -/
theorem fitsAll_of_effective (hdefaults : settings.defaults.toPolicy.Fits now)
    (heffective : ∀ entry ∈ settings.effective, entry.2.toPolicy.Fits now) :
    FitsAll settings now := by
  intro name
  cases hfind : settings.breakers.find? (·.name == name) with
  | none =>
    have hlimits : settings.limitsFor name = settings.defaults := by
      rw [Settings.limitsFor, hfind]
    rw [hlimits]
    exact hdefaults
  | some o =>
    have hlimits : settings.limitsFor name = settings.defaults.adjust o := by
      rw [Settings.limitsFor, hfind]
    rw [hlimits]
    exact heffective (o.name, _) (List.mem_map_of_mem (List.mem_of_find?_eq_some hfind))

/-- One breaker is asked for before, one only after it has made moves, and one is
not in the file. -/
theorem yields_reported_overrides :
    Settings.faults { defaults := { minRequests := 20 },
                      breakers := [{ name := "mail", probeLimit := some 1 },
                                   { name := "sms", openDurationSecs := some 15 }] } = [] ∧
    ∃ p, Panel.new { defaults := { minRequests := 20 },
                     breakers := [{ name := "mail", probeLimit := some 1 },
                                  { name := "sms", openDurationSecs := some 15 }] } = .ok p ∧
      ∃ run, p.run [(1, .get "sms"), (2, .on "sms" .call), (3, .on "sms" (.finish false))] =
          some run ∧
        run.panel.Yields 4 "mail" { probeLimit := 1, minRequests := 20 } ∧
        run.panel.Yields 4 "sms" { openDurationSecs := 15, minRequests := 20 } ∧
        run.panel.Yields 4 "fax" { minRequests := 20 } := by
  have hfaults : Settings.faults
      { defaults := { minRequests := 20 },
        breakers := [{ name := "mail", probeLimit := some 1 },
                     { name := "sms", openDurationSecs := some 15 }] } = [] := by decide +kernel
  have hfits : ∀ now ∈ [1, 2, 3, 4], FitsAll
      { defaults := { minRequests := 20 },
        breakers := [{ name := "mail", probeLimit := some 1 },
                     { name := "sms", openDurationSecs := some 15 }] } now := by
    simp only [List.forall_mem_cons]
    refine ⟨?_, ?_, ?_, ?_, by simp⟩ <;> exact fitsAll_of_effective (by decide) (by decide)
  obtain ⟨-, -, -, p, hpanel, hyields⟩ := yields_reported hfaults
  obtain ⟨rfl, -⟩ := find?_new hpanel
  obtain ⟨run, hrun⟩ : ∃ run, Panel.run { settings :=
      { defaults := { minRequests := 20 },
        breakers := [{ name := "mail", probeLimit := some 1 },
                     { name := "sms", openDurationSecs := some 15 }] } }
      [(1, .get "sms"), (2, .on "sms" .call), (3, .on "sms" (.finish false))] = some run := by
    rw [← Option.isSome_iff_exists]
    decide +kernel
  obtain ⟨hnamed, hother⟩ := hyields _ run 4 hrun (by simp [hfits]) (hfits 4 (by decide))
  have heffective : Settings.effective
      { defaults := { minRequests := 20 },
        breakers := [{ name := "mail", probeLimit := some 1 },
                     { name := "sms", openDurationSecs := some 15 }] } =
      [("mail", { probeLimit := 1, minRequests := 20 }),
        ("sms", { openDurationSecs := 15, minRequests := 20 })] := by
    simp [Settings.effective, Limits.adjust]
  rw [heffective] at hnamed hother
  simp only [List.forall_mem_cons] at hnamed
  exact ⟨hfaults, _, hpanel, run, hrun, hnamed.1, hnamed.2.1,
    hother "fax" (by simp) (by decide)⟩

end Panel

end Breaker
