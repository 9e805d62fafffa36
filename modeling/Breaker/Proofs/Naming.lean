import Breaker.Proofs.Report

/-!
# Only its name can keep a breaker from being handed out

Settings are checked twice.  A panel is made of settings without faults, where
every override was checked under its own name; and when a name is first asked
for, the policy that is found for it is checked once more, under that name.
The second check can find nothing but the name itself: a text of white space
names no override, so that the defaults are found for it, and they have passed.

* `Arises` is a panel after anything that clients and listeners may have done
  with it, and `Arises.made` says that all its breakers are made from the
  settings, under names that show;
* `Usable.faults_of_blank` says what the second check reports;
* `get_ok_iff_named` is the result.
-/

namespace Breaker

theorem Settings.Usable.faults_of_blank {settings : Settings} {name : String}
    (h : settings.Usable) (hblank : Text.isBlank name = true) :
    (settings.limitsFor name).toPolicy.faults name = [.emptyName] := by
  have hother : name ∉ settings.breakers.map Override.name := by
    intro hmem
    obtain ⟨o, ho, rfl⟩ := List.mem_map.1 hmem
    rw [Text.isBlank_eq_false_iff.2 (h.named o ho)] at hblank
    cases hblank
  have hlimit : settings.defaults.toPolicy.probeLimit ≠ 0 := Nat.one_le_iff_ne_zero.1 h.probeLimit
  have husable : Policy.usableThreshold settings.defaults.toPolicy.threshold = true :=
    Policy.usableThreshold_iff.2 h.threshold
  rw [Settings.limitsFor_of_notMem hother, Policy.faults, if_pos hblank, if_neg hlimit,
    if_pos husable]
  rfl

namespace Panel

variable {settings : Settings} {p : Panel} {name : String} {now : Instant}

/-! ## Panels in use -/

/-- A panel after whatever clients have done with it, and whatever moves were made
on its breakers, in a listener or outside. -/
inductive Arises (settings : Settings) : Panel → Prop where
  | new {p : Panel} (h : Panel.new settings = .ok p) : Arises settings p
  | act {p : Panel} {now : Instant} {act : Act} {done : Done} (h : Arises settings p)
      (hdone : p.act now act = some done) : Arises settings done.panel
  | move {p p' : Panel} {now : Instant} {name : String} {move : Move} {r : Engine.Response}
      (h : Arises settings p) (hstep : p.step now name move = some (p', r)) : Arises settings p'

/-- The breaker is made from the settings for its name, which is not blank. -/
structure MadeFrom (settings : Settings) (e : Engine) : Prop where
  policy_eq : e.policy = (settings.limitsFor e.name).toPolicy
  named : Text.isBlank e.name = false

/-- The panel has its settings, and all its breakers are made from them. -/
structure Made (settings : Settings) (p : Panel) : Prop where
  settings_eq : p.settings = settings
  engines : ∀ e ∈ p.engines, MadeFrom settings e

theorem MadeFrom.built {e e' : Engine} (h : MadeFrom settings e)
    (hbuilt : Engine.Built e.name e.policy e.audience e') : MadeFrom settings e' :=
  ⟨by rw [hbuilt.policy_eq, hbuilt.name_eq, h.policy_eq], hbuilt.name_eq ▸ h.named⟩

theorem Made.put {e : Engine} (h : Made settings p) (he : MadeFrom settings e) :
    Made settings (p.put e) := by
  refine ⟨h.settings_eq, ?_⟩
  simp only [Panel.put, List.forall_mem_map]
  intro old hold
  split
  · exact he
  · exact h.engines old hold

/-- A breaker is built only under a name that shows. -/
theorem Made.build {e : Engine} (h : Made settings p) (hbuild : p.build now name = .ok e) :
    MadeFrom settings e := by
  have hbuilt := Engine.built_new (build_eq_ok hbuild)
  have hfaults : (p.settings.limitsFor name).toPolicy.faults name = [] := by
    simp only [Panel.build] at hbuild
    split at hbuild
    next hempty => exact List.isEmpty_iff.1 hempty
    · cases hbuild
  refine ⟨?_, ?_⟩
  · rw [hbuilt.policy_eq, hbuilt.name_eq, h.settings_eq]
  · rw [hbuilt.name_eq]
    exact (Policy.faults_eq_nil_iff.1 hfaults).1

theorem Made.insertNew {e : Engine} (h : Made settings p) (he : MadeFrom settings e) :
    Made settings (p.insertNew e) := by
  refine ⟨settings_insertNew.trans h.settings_eq, fun old hold => ?_⟩
  rcases mem_insertNew hold with hmem | rfl
  · exact h.engines old hmem
  · exact he

theorem Made.stepQuiet {p' : Panel} {move : Move} {r : Engine.Response} (h : Made settings p)
    (hstep : p.stepQuiet now name move = some (p', r)) : Made settings p' := by
  obtain ⟨e, hfind, hquiet, -, rfl⟩ := stepQuiet_eq_some hstep
  have he := h.engines e (List.mem_of_find?_eq_some hfind)
  exact h.put (he.built ((Engine.built_self e).stepQuiet hquiet))

theorem Made.visit {p' : Panel} {move : Move} {order : List String}
    {responses : List (String × Engine.Response)} (h : Made settings p)
    (hvisit : p.visit now move order = some (p', responses)) : Made settings p' := by
  induction order generalizing p responses with
  | nil =>
    cases hvisit
    exact h
  | cons name order ih =>
    rw [Panel.visit] at hvisit
    obtain ⟨⟨first, r⟩, hstep, hrest⟩ := Option.bind_eq_some_iff.1 hvisit
    simp only at hrest
    split at hrest
    · cases hrest
      exact h.stepQuiet hstep
    · obtain ⟨⟨last, more⟩, hmore, hlast⟩ := Option.bind_eq_some_iff.1 hrest
      cases hlast
      exact ih (h.stepQuiet hstep) hmore

theorem Made.act {act : Act} {done : Done} (h : Made settings p)
    (hdone : p.act now act = some done) : Made settings done.panel := by
  cases act with
  | get name =>
    rcases get_cases p now name with ⟨e, -, hget⟩ | ⟨-, e, hbuild, hget⟩ | ⟨-, failure, hget⟩ <;>
      simp only [Panel.act, hget, Option.some.injEq] at hdone <;> rw [← hdone]
    · exact h
    · exact h.insertNew (h.build hbuild)
    · exact h
  | on name move =>
    obtain ⟨⟨p', r⟩, hstep, rfl⟩ := Option.map_eq_some_iff.1 hdone
    exact h.stepQuiet hstep
  | snapshots order =>
    simp only [Panel.act, if_pos (perm_of_visit (.inl hdone))] at hdone
    obtain ⟨⟨p', responses⟩, hvisit, rfl⟩ := Option.map_eq_some_iff.1 hdone
    exact h.visit hvisit
  | resetAll order =>
    simp only [Panel.act, if_pos (perm_of_visit (.inr hdone))] at hdone
    obtain ⟨⟨p', responses⟩, hvisit, rfl⟩ := Option.map_eq_some_iff.1 hdone
    exact h.visit hvisit
  | size =>
    cases hdone
    exact h
  | listen audience =>
    cases hdone
    exact ⟨h.settings_eq, h.engines⟩

theorem Made.step {p' : Panel} {move : Move} {r : Engine.Response} (h : Made settings p)
    (hstep : p.step now name move = some (p', r)) : Made settings p' := by
  simp only [Panel.step, Option.bind_eq_bind, Option.bind_eq_some_iff, Option.pure_def,
    Option.some.injEq, Prod.mk.injEq] at hstep
  obtain ⟨e, hfind, r', hmove, rfl, rfl⟩ := hstep
  have he := h.engines e (List.mem_of_find?_eq_some hfind)
  exact h.put (he.built ((Engine.step_took hmove).built (Engine.built_self e)))

/-- Settings of which a panel was made are usable, and its breakers are made from
them. -/
theorem Arises.made (h : Arises settings p) : settings.Usable ∧ Made settings p := by
  induction h with
  | @new p hnew =>
    have hfaults : settings.faults = [] := by
      unfold Panel.new at hnew
      split at hnew
      next hempty => exact List.isEmpty_iff.1 hempty
      · cases hnew
    obtain ⟨rfl, -⟩ := find?_new hnew
    exact ⟨Settings.faults_eq_nil_iff.1 hfaults, rfl, by simp⟩
  | act _ hdone ih => exact ⟨ih.1, ih.2.act hdone⟩
  | move _ hstep ih => exact ⟨ih.1, ih.2.step hstep⟩

/-! ## Asking for a name -/

/-- A blank name is refused, and nothing else is wrong with it. -/
theorem Made.get_of_blank (h : Made settings p) (husable : settings.Usable)
    (hblank : Text.isBlank name = true) (now : Instant) :
    p.get now name = .error (.faults [.emptyName]) := by
  have hnone : p.find? name = none := by
    rw [find?_eq_none_iff]
    intro hmem
    obtain ⟨e, he, rfl⟩ := List.mem_map.1 hmem
    rw [(h.engines e he).named] at hblank
    cases hblank
  have hbuild : p.build now name = .error (.faults [.emptyName]) := by
    simp only [Panel.build, h.settings_eq, husable.faults_of_blank hblank]
    rfl
  simp only [Panel.get, hnone, hbuild]
  rfl

/-- A name that shows has a breaker, or gets one if the clock can hold the end of
its first period. -/
theorem Made.get_of_named (h : Made settings p) (husable : settings.Usable)
    (hnamed : Text.isBlank name = false) (now : Instant) :
    (∃ p' isNew e, p.get now name = .ok (p', isNew) ∧ p'.find? name = some e ∧
      MadeFrom settings e) ∨
    p.get now name = .error .overflow ∧ ¬(settings.limitsFor name).toPolicy.Fits now := by
  cases hfind : p.find? name with
  | some e =>
    have hmem := List.mem_of_find?_eq_some hfind
    exact .inl ⟨p, false, e, by simp only [Panel.get, hfind], hfind, h.engines e hmem⟩
  | none =>
    have hfaults := husable.faults_limitsFor hnamed
    cases hnew : Engine.new? name (settings.limitsFor name).toPolicy p.audience now with
    | some e =>
      have hbuild : p.build now name = .ok e := by
        simp only [Panel.build, h.settings_eq, hfaults, hnew]
        rfl
      have hname : e.name = name := (Engine.built_new hnew).name_eq
      refine .inl ⟨p.insertNew e, true, e, ?_, ?_, h.build hbuild⟩
      · simp only [Panel.get, hfind, hbuild]
        rfl
      · rw [find?_insertNew, if_pos hname.symm, hfind]
        rfl
    | none =>
      refine .inr ⟨?_, fun hfits => ?_⟩
      · simp only [Panel.get, Panel.build, hfind, h.settings_eq, hfaults, hnew]
        rfl
      · rw [Engine.new?_of_fits name p.audience hfits] at hnew
        cases hnew

/-- A panel of settings without faults hands out a breaker for every name that
shows, and for no other, whatever was done before.  What it hands out has the
limits that were set for the name, and no fault.  A blank name is refused for
being blank, which leaves the panel as it is; no other fault is ever reported. -/
theorem get_ok_iff_named (harises : Arises settings p) (hfits : FitsAll settings now)
    (name : String) :
    ((∃ p' isNew, p.get now name = .ok (p', isNew)) ↔
        ∃ c ∈ name.toList, Text.isSpace c = false) ∧
      (∀ p' isNew, p.get now name = .ok (p', isNew) → ∃ e, p'.find? name = some e ∧
        e.policy = (settings.limitsFor name).toPolicy ∧ e.policy.faults name = []) ∧
      ((∀ c ∈ name.toList, Text.isSpace c = true) → p.act now (.get name) =
        some { panel := p, answer := .failed (.faults [.emptyName]) }) ∧
      ∀ failure, p.get now name = .error failure → failure = .faults [.emptyName] := by
  obtain ⟨husable, hmade⟩ := harises.made
  cases hblank : Text.isBlank name with
  | true =>
    have hget := hmade.get_of_blank husable hblank now
    have hunnamed : ¬∃ c ∈ name.toList, Text.isSpace c = false := by
      rw [← Text.isBlank_eq_false_iff, hblank]
      exact Bool.noConfusion
    refine ⟨⟨?_, fun hnamed => absurd hnamed hunnamed⟩, ?_, fun _ => ?_, ?_⟩
    · rintro ⟨p', isNew, hok⟩
      cases hget.symm.trans hok
    · intro p' isNew hok
      cases hget.symm.trans hok
    · simp only [Panel.act, hget]
    · intro failure hfailure
      cases hget.symm.trans hfailure
      rfl
  | false =>
    obtain ⟨c, hc, hshows⟩ := Text.isBlank_eq_false_iff.1 hblank
    have hfaults := husable.faults_limitsFor hblank
    rcases hmade.get_of_named husable hblank now with
      ⟨p', isNew, e, hget, hfind, hfrom⟩ | ⟨-, hunfit⟩
    · refine ⟨⟨fun _ => ⟨c, hc, hshows⟩, fun _ => ⟨p', isNew, hget⟩⟩, ?_, fun hall => ?_, ?_⟩
      · intro p'' isNew' hok
        cases hget.symm.trans hok
        have hpolicy : e.policy = (settings.limitsFor name).toPolicy := by
          rw [hfrom.policy_eq, name_of_find? hfind]
        exact ⟨e, hfind, hpolicy, hpolicy ▸ hfaults⟩
      · rw [hall c hc] at hshows
        cases hshows
      · intro failure hfailure
        cases hget.symm.trans hfailure
    · exact absurd (hfits name) hunfit

/-- A breaker that has failed a call already, and an empty name that was refused
before.  White space around a name makes another name of it, and so does calling
it after the defaults. -/
theorem get_ok_iff_named_spaces :
    ∃ p, Arises { breakers := [{ name := "sms", probeLimit := some 1 }] } p ∧
      FitsAll { breakers := [{ name := "sms", probeLimit := some 1 }] } 5 ∧ p.roll = ["sms"] ∧
      (∃ p' isNew, p.get 5 " sms" = .ok (p', isNew)) ∧
      (∃ p' isNew, p.get 5 "defaults" = .ok (p', isNew)) ∧
      p.act 5 (.get " \u2003") =
        some { panel := p, answer := .failed (.faults [.emptyName]) } := by
  have hnew : Panel.new { breakers := [{ name := "sms", probeLimit := some 1 }] } =
      .ok { settings := { breakers := [{ name := "sms", probeLimit := some 1 }] } } := by
    have hfaults : Settings.faults { breakers := [{ name := "sms", probeLimit := some 1 }] } =
        [] := by decide +kernel
    simp [Panel.new, hfaults]
  have hfits : FitsAll { breakers := [{ name := "sms", probeLimit := some 1 }] } 5 :=
    fitsAll_of_single (by decide) (by decide)
  obtain ⟨first, hfirst, second, hsecond, third, hthird, refused, hrefused, hroll⟩ :
      ∃ first ∈ Panel.act { settings := { breakers := [{ name := "sms", probeLimit := some 1 }] } }
          1 (.get "sms"),
        ∃ second ∈ first.panel.step 2 "sms" .call,
          ∃ third ∈ second.1.step 3 "sms" (.finish false),
            ∃ refused ∈ third.1.act 4 (.get ""), refused.panel.roll = ["sms"] := by
    decide +kernel
  have harises : Arises { breakers := [{ name := "sms", probeLimit := some 1 }] } refused.panel :=
    (((Arises.new hnew).act hfirst).move hsecond |>.move hthird).act hrefused
  obtain ⟨hspaces, -, -, -⟩ := get_ok_iff_named harises hfits " sms"
  obtain ⟨hdefaults, -, -, -⟩ := get_ok_iff_named harises hfits "defaults"
  obtain ⟨-, -, hblank, -⟩ := get_ok_iff_named harises hfits " \u2003"
  exact ⟨refused.panel, harises, hfits, hroll, hspaces.2 ⟨'s', by decide, by decide⟩,
    hdefaults.2 ⟨'d', by decide, by decide⟩, hblank (List.all_eq_true.1 (by decide))⟩

end Panel

end Breaker
