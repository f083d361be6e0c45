-- The log is an account of the fuel. Each unit that a run spends leaves one
-- record of a reduction, and the record that the fuel is gone, which a run
-- leaves where it fails to spend, stands at the end alone. More fuel changes
-- no record of a run that ended, and it only lengthens the log of a run that
-- was cut short.
import Mathlib.Data.Nat.Init
import PrimedLambda.Proofs.Stepping

namespace PrimedLambda

/-! ## The log as it is written -/

namespace Event

/-- Whether a line of the log tells of a reduction. -/
def isBetaLine (line : String) : Bool := "TRACE beta ".toList.isPrefixOf line.toList

/-- Whether a line of the log is at the level of debugging. -/
def isDebugLine (line : String) : Bool := "DEBUG ".toList.isPrefixOf line.toList

/-- Whether the record says that the fuel is gone. -/
def isExhausted : Event → Bool
  | .exhausted _ => true
  | _ => false

theorem isBetaLine_text (e : Event) : isBetaLine e.text = e.isBeta := by
  unfold isBetaLine
  cases e <;> (unfold text; simp only [String.toList_append]; rfl)

theorem isDebugLine_text (e : Event) : isDebugLine e.text = e.isExhausted := by
  unfold isDebugLine
  cases e <;> (unfold text; simp only [String.toList_append]; rfl)

end Event

/-- The log of the evaluation under a limit, one line for each record. -/
def Term.trace (t : Term) (limit : Nat) : List String := (t.logWithin limit).map Event.text

/-! ## Metered work in sequence -/

namespace Metered

variable {fuel more : Nat} {α β : Type}

theorem andThen_of_none {first : Metered fuel α}
    (next : (left : Nat) → left ≤ fuel → α → Metered left β) (h : first.outcome = none) :
    (first.andThen next).log = first.log ∧ (first.andThen next).outcome = none := by
  obtain ⟨log, result⟩ := first
  cases result with
  | none => exact ⟨rfl, rfl⟩
  | some r => cases h

theorem andThen_of_some {first : Metered fuel α}
    (next : (left : Nat) → left ≤ fuel → α → Metered left β) {a : α} {left : Nat}
    (h : first.outcome = some (a, left)) :
    (first.andThen next).log = first.log ++ (next left (left_le h) a).log ∧
      (first.andThen next).outcome = (next left (left_le h) a).outcome := by
  obtain ⟨log, result⟩ := first
  rcases result with _ | ⟨b, ⟨k, hk⟩⟩
  · cases h
  · cases h
    refine ⟨rfl, ?_⟩
    simp only [outcome, andThen, Option.map_map]
    rfl

/-- What follows only adds to the log. -/
theorem log_prefix_andThen (first : Metered fuel α)
    (next : (left : Nat) → left ≤ fuel → α → Metered left β) :
    first.log <+: (first.andThen next).log := by
  rcases h : first.outcome with _ | ⟨a, left⟩
  · exact ⟨[], by rw [(andThen_of_none next h).1, List.append_nil]⟩
  · rw [(andThen_of_some next h).1]
    exact List.prefix_append _ _

@[simp] theorem log_spend (log : List Event) (rest : Metered fuel α) :
    (spend log rest).log = log ++ rest.log := rfl

/-! ## One record for each unit -/

/-- Work that ended has logged one reduction for each unit of fuel that is gone, and work that was
cut short one for each unit that it had, and then that the limit is reached. No other record says
that fuel is gone. -/
structure Accounts (limit : Nat) (m : Metered fuel α) : Prop where
  ended : ∀ a left, m.outcome = some (a, left) →
    m.log.countP Event.isBeta + left = fuel ∧ ∀ e ∈ m.log, e.isExhausted = false
  cut : m.outcome = none → ∃ part, m.log = part ++ [.exhausted limit] ∧
    part.countP Event.isBeta = fuel ∧ ∀ e ∈ part, e.isExhausted = false

theorem Accounts.andThen {limit : Nat} {first : Metered fuel α}
    {next : (left : Nat) → left ≤ fuel → α → Metered left β} (hf : first.Accounts limit)
    (hn : ∀ a left hle, first.outcome = some (a, left) → (next left hle a).Accounts limit) :
    (first.andThen next).Accounts limit := by
  rcases ho : first.outcome with _ | ⟨a, left⟩
  · obtain ⟨hlog, hout⟩ := andThen_of_none next ho
    refine ⟨fun b last h => ?_, fun _ => ?_⟩
    · rw [hout] at h
      cases h
    · rw [hlog]
      exact hf.cut ho
  · obtain ⟨hlog, hout⟩ := andThen_of_some next ho
    have hrest := hn a left (left_le ho) ho
    obtain ⟨hspent, hquiet⟩ := hf.ended a left ho
    refine ⟨fun b last h => ?_, fun h => ?_⟩
    · rw [hout] at h
      obtain ⟨hcount, hq⟩ := hrest.ended b last h
      rw [hlog, List.countP_append]
      exact ⟨by omega, List.forall_mem_append.2 ⟨hquiet, hq⟩⟩
    · rw [hout] at h
      obtain ⟨part, hpart, hcount, hq⟩ := hrest.cut h
      refine ⟨first.log ++ part, ?_, ?_, List.forall_mem_append.2 ⟨hquiet, hq⟩⟩
      · rw [hlog, hpart, List.append_assoc]
      · rw [List.countP_append]
        omega

/-! ## More fuel -/

/-- With `extra` fuel, `long` does as `short` does and leaves that much more, or it goes on from
where `short` was cut, which is before the record of the limit. -/
structure Extends (limit extra : Nat) (long : Metered more α) (short : Metered fuel α) : Prop where
  ended : ∀ a left, short.outcome = some (a, left) →
    long.log = short.log ∧ long.outcome = some (a, left + extra)
  cut : short.outcome = none → ∃ part, short.log = part ++ [.exhausted limit] ∧ part <+: long.log

theorem Extends.andThen {limit extra : Nat} {long : Metered more α} {short : Metered fuel α}
    {next : (left : Nat) → left ≤ fuel → α → Metered left β}
    {next' : (left : Nat) → left ≤ more → α → Metered left β}
    (he : Extends limit extra long short)
    (hn : ∀ a left left' hle hle', left' = left + extra →
      Extends limit extra (next' left' hle' a) (next left hle a)) :
    Extends limit extra (long.andThen next') (short.andThen next) := by
  rcases ho : short.outcome with _ | ⟨a, left⟩
  · obtain ⟨hlog, hout⟩ := andThen_of_none next ho
    refine ⟨fun b last h => ?_, fun _ => ?_⟩
    · rw [hout] at h
      cases h
    · obtain ⟨part, hpart, hprefix⟩ := he.cut ho
      exact ⟨part, by rw [hlog, hpart], hprefix.trans (log_prefix_andThen long next')⟩
  · obtain ⟨hlog, hout⟩ := andThen_of_some next ho
    obtain ⟨hsame, hl⟩ := he.ended a left ho
    obtain ⟨hlog', hout'⟩ := andThen_of_some next' hl
    have hrest := hn a left _ (left_le ho) (left_le hl) rfl
    refine ⟨fun b last h => ?_, fun h => ?_⟩
    · rw [hout] at h
      obtain ⟨hlogs, houts⟩ := hrest.ended b last h
      exact ⟨by rw [hlog', hlog, hsame, hlogs], by rw [hout', houts]⟩
    · rw [hout] at h
      obtain ⟨part, hpart, hprefix⟩ := hrest.cut h
      refine ⟨short.log ++ part, by rw [hlog, hpart, List.append_assoc], ?_⟩
      rw [hlog', hsame]
      exact (List.prefix_append_right_inj _).2 hprefix

theorem extends_done {limit extra : Nat} (h : more = fuel + extra) (log : List Event) (a : α) :
    Extends limit extra (done log a : Metered more α) (done log a : Metered fuel α) := by
  refine ⟨fun b left hb => ?_, fun hb => ?_⟩
  · cases hb
    exact ⟨rfl, by rw [outcome_done, h]⟩
  · cases hb

/-- Where the one fails to spend, its log holds nothing but the limit. -/
theorem extends_outOfFuel {limit extra : Nat} (long : Metered more α) :
    Extends limit extra long (outOfFuel limit : Metered fuel α) :=
  ⟨fun b left h => (by cases h), fun _ => ⟨[], rfl, List.nil_prefix⟩⟩

theorem Extends.spend {limit extra : Nat} {long : Metered more α} {short : Metered fuel α}
    (he : Extends limit extra long short) (log : List Event) :
    Extends limit extra (Metered.spend log long) (Metered.spend log short) := by
  refine ⟨fun b left h => ?_, fun h => ?_⟩
  · rw [outcome_spend] at h
    obtain ⟨hlogs, houts⟩ := he.ended b left h
    rw [log_spend, log_spend, outcome_spend, hlogs]
    exact ⟨rfl, houts⟩
  · rw [outcome_spend] at h
    obtain ⟨part, hpart, hprefix⟩ := he.cut h
    refine ⟨log ++ part, by rw [log_spend, hpart, List.append_assoc], ?_⟩
    rw [log_spend]
    exact (List.prefix_append_right_inj _).2 hprefix

end Metered

/-! ## Evaluation -/

namespace Term

open Metered (Accounts Extends)

/-- Evaluation goes on with less fuel, or with as much and a part of the term. -/
theorem fuel_induction {P : Term → Nat → Prop}
    (value : ∀ t fuel, t.isValue = true → P t fuel)
    (app : ∀ f a fuel, P f fuel → (∀ left ≤ fuel, P a left) → (∀ u, ∀ left < fuel, P u left) →
      P (.app f a) fuel) (t : Term) (fuel : Nat) : P t fuel := by
  induction fuel using Nat.strongRecOn generalizing t with
  | ind fuel ihFuel =>
    induction t with
    | app f a ihf iha =>
      refine app f a fuel ihf (fun left hle => ?_) (fun u left hlt => ihFuel left hlt u)
      rcases Nat.lt_or_eq_of_le hle with hlt | rfl
      · exact ihFuel left hlt a
      · exact iha
    | _ => exact value _ _ rfl

/-- The log of an application has a reduction when it counts one. -/
theorem countP_applyLog (f a : Term) : (f.applyLog a).countP Event.isBeta = f.cost := by
  cases f <;> rfl

theorem quiet_applyLog (f a : Term) : ∀ e ∈ f.applyLog a, e.isExhausted = false := by
  cases f <;> simp [applyLog, Event.isExhausted]

section

variable {limit : Nat} {apply : Term → Term → Term} {m : Term → (fuel : Nat) → Metered fuel Term}

theorem accounts_done {fuel : Nat} {log : List Event} (v : Term)
    (hlog : log.countP Event.isBeta = 0) (hquiet : ∀ e ∈ log, e.isExhausted = false) :
    (Metered.done log v : Metered fuel Term).Accounts limit := by
  refine ⟨fun b left h => ?_, fun h => ?_⟩
  · cases h
    exact ⟨by simp [Metered.done, hlog], hquiet⟩
  · cases h

/-- Without fuel the limit is all that is logged. -/
theorem accounts_outOfFuel : (Metered.outOfFuel limit : Metered 0 Term).Accounts limit :=
  ⟨fun b left h => (by cases h), fun _ => ⟨[], rfl, rfl, by simp⟩⟩

theorem accounts_spend {fuel : Nat} (f a : Term) (hf : f.cost = 1) {rest : Metered fuel Term}
    (h : rest.Accounts limit) : (Metered.spend (f.applyLog a) rest).Accounts limit := by
  have hcount := countP_applyLog f a
  refine ⟨fun b left ho => ?_, fun ho => ?_⟩
  · rw [Metered.outcome_spend] at ho
    obtain ⟨hrest, hquiet⟩ := h.ended b left ho
    rw [Metered.log_spend, List.countP_append]
    exact ⟨by omega, List.forall_mem_append.2 ⟨quiet_applyLog f a, hquiet⟩⟩
  · rw [Metered.outcome_spend] at ho
    obtain ⟨part, hpart, hrest, hquiet⟩ := h.cut ho
    refine ⟨f.applyLog a ++ part, by rw [Metered.log_spend, hpart, List.append_assoc], ?_,
      List.forall_mem_append.2 ⟨quiet_applyLog f a, hquiet⟩⟩
    rw [List.countP_append]
    omega

/-- A run spends a unit of fuel for each record of a reduction, and when it wants one more the last
record is that of the limit. -/
theorem Meters.accounts (hm : Meters limit apply m) (t : Term) (fuel : Nat) :
    (m t fuel).Accounts limit := by
  induction t, fuel using fuel_induction with
  | value t fuel ht =>
    rw [hm.value fuel ht]
    exact accounts_done t rfl (by simp)
  | app f a fuel ihf iha ihNext =>
    rw [hm.app]
    refine ihf.andThen fun vf left hle _ => (iha left hle).andThen fun va rest hrest _ => ?_
    cases vf with
    | abs p b =>
      cases rest with
      | zero => exact accounts_outOfFuel
      | succ n => exact accounts_spend (.abs p b) va rfl (ihNext _ n (by omega))
    | _ => exact accounts_done _ (countP_applyLog _ va) (quiet_applyLog _ va)

/-- Under a larger limit a run that was cut short goes on from there, and any other is the same. -/
theorem Meters.extends {more : Nat} {m' : Term → (fuel : Nat) → Metered fuel Term}
    (hm : Meters limit apply m) (hm' : Meters more apply m') (extra : Nat) (t : Term)
    (fuel : Nat) : Extends limit extra (m' t (fuel + extra)) (m t fuel) := by
  induction t, fuel using fuel_induction with
  | value t fuel ht =>
    rw [hm.value _ ht, hm'.value _ ht]
    exact Metered.extends_done rfl _ _
  | app f a fuel ihf iha ihNext =>
    rw [hm.app, hm'.app]
    refine ihf.andThen fun vf left left' hle _ hleft => ?_
    subst hleft
    refine (iha left hle).andThen fun va rest rest' hrest _ hrest' => ?_
    cases vf with
    | abs p b =>
      cases rest with
      | zero => exact Metered.extends_outOfFuel _
      | succ n =>
        cases rest' with
        | zero => omega
        | succ n' =>
          obtain rfl : n' = n + extra := by omega
          exact (ihNext _ n (by omega)).spend _
    | _ => exact Metered.extends_done hrest' _ _

end

/-! ## The trace -/

theorem countP_trace (log : List Event) :
    (log.map Event.text).countP Event.isBetaLine = log.countP Event.isBeta := by
  rw [List.countP_map]
  exact List.countP_congr fun e _ => by simp [Event.isBetaLine_text]

theorem quiet_trace {log : List Event} (h : ∀ e ∈ log, e.isExhausted = false) :
    ∀ line ∈ log.map Event.text, Event.isDebugLine line = false := by
  intro line hline
  obtain ⟨e, he, rfl⟩ := List.mem_map.1 hline
  rw [Event.isDebugLine_text]
  exact h e he

/-! ## The law -/

/-- The log accounts for the fuel. A run that ends tells of each reduction that it needs, says
nothing of fuel that is gone, and is told in the same words under any larger limit. A run that is
cut short tells of as many reductions as the limit allows and then that the fuel is gone, and up to
there a larger limit tells the same. -/
theorem the_log_accounts_for_the_fuel (t : Term) {n m : Nat} (h : n ≤ m) :
    (∀ v, t.evaluateWithin n = .ok v →
      (∃ k, k ≤ n ∧ t.Steps k v ∧ (∀ j, j < k → t.evaluateWithin j = .error ⟨j⟩) ∧
        (t.trace n).countP Event.isBetaLine = k) ∧
      (∀ line ∈ t.trace n, Event.isDebugLine line = false) ∧ t.trace m = t.trace n) ∧
    (∀ e, t.evaluateWithin n = .error e → ∃ part,
      t.trace n =
        part ++ ["DEBUG fuel exhausted after " ++ toString n ++ " beta reductions"] ∧
      part.countP Event.isBetaLine = n ∧ (∀ line ∈ part, Event.isDebugLine line = false) ∧
      part <+: t.trace m) := by
  obtain ⟨extra, rfl⟩ := Nat.exists_eq_add_of_le h
  have haccounts := (meters_meter n).accounts t n
  have hextends := (meters_meter n).extends (meters_meter (n + extra)) extra t n
  unfold trace logWithin
  rcases ho : (t.meter n n).outcome with _ | ⟨w, left⟩
  · refine ⟨fun v hv => ?_, fun e _ => ?_⟩
    · simp [evaluateWithin, ho] at hv
    · obtain ⟨part, hpart, hcount, hquiet⟩ := haccounts.cut ho
      obtain ⟨part', hpart', hprefix⟩ := hextends.cut ho
      obtain rfl : part = part' := List.append_cancel_right (hpart.symm.trans hpart')
      rw [hpart, List.map_append]
      refine ⟨_, rfl, ?_, quiet_trace hquiet, hprefix.map _⟩
      rw [countP_trace, hcount]
  · refine ⟨fun v hv => ?_, fun e he => ?_⟩
    · obtain ⟨k, hk, hsteps, hval⟩ := steps_of_evaluateWithin hv
      obtain ⟨hsame, -⟩ := hextends.ended w left ho
      obtain ⟨hcount, hquiet⟩ := haccounts.ended w left ho
      have hleft : some (v, n - k) = some (w, left) := by
        rw [← ho, (evaluates_meter n).outcome_of_steps hsteps hval, if_neg (by omega)]
      cases hleft
      rw [hsame]
      refine ⟨⟨k, hk, hsteps, fun j hj => evaluateWithin_of_lt hsteps hj, ?_⟩,
        quiet_trace hquiet, rfl⟩
      rw [countP_trace]
      omega
    · simp [evaluateWithin, ho] at he

/-- `[[λx.x f] [λy.y t]]`, with a reduction on either side. -/
def twoSides : Term :=
  ((lam .x (letter .x)).app (letter .f)).app ((lam .y (letter .y)).app (letter .t))

/-- The run is cut after the first reduction, and gets stuck on `f` after both. -/
theorem a_cut_run_is_told_in_part :
    (1 ≤ 2 ∧ twoSides.evaluateWithin 1 = .error ⟨1⟩ ∧ ∃ part,
      twoSides.trace 1 = part ++ ["DEBUG fuel exhausted after 1 beta reductions"] ∧
      part.countP Event.isBetaLine = 1 ∧ part <+: twoSides.trace 2) ∧
    2 ≤ 7 ∧ twoSides.evaluateWithin 2 = .ok (stuck ((letter .f).app (letter .t))) ∧
      twoSides.trace 7 = twoSides.trace 2 := by
  have hcut : twoSides.evaluateWithin 1 = .error ⟨1⟩ := by cbv
  have hended : twoSides.evaluateWithin 2 = .ok (stuck ((letter .f).app (letter .t))) := by cbv
  obtain ⟨part, htrace, hcount, -, hprefix⟩ :=
    (the_log_accounts_for_the_fuel twoSides (show 1 ≤ 2 by decide)).2 _ hcut
  obtain ⟨-, -, hsame⟩ :=
    (the_log_accounts_for_the_fuel twoSides (show 2 ≤ 7 by decide)).1 _ hended
  exact ⟨⟨by decide, hcut, part, htrace, hcount, hprefix⟩, by decide, hended, hsame⟩

end Term

end PrimedLambda
