import Mathlib.Data.List.Sort
import Mathlib.Data.String.Basic
import Teiryo.Daemon.Discovery
import Teiryo.Framework.Grouping

/-!
# Health of the providers

What `Providers` replies, following `provider_health` in `teiryod/src/state.rs`: a row for every
provider that has an account or a discovery error, in the order of their names, with its accounts
as they were registered.
-/

namespace Teiryo

open Grouping

variable {F : Type}

namespace Daemon

/-- An account without counters has had no poll. -/
def counters (d : Daemon F) (a : Account) : HealthCounters :=
  (d.state.health.get (a.provider, a.id)).getD {}

def accountHealth (d : Daemon F) (a : Account) : AccountHealth where
  account := a.id
  consecutiveFailures := (d.counters a).consecutiveFailures
  lastError := (d.counters a).lastError
  lastPollTs := (d.state.latestPoll.get a.id).map (·.ts)
  pollIntervalSecs := intervalSecs (d.state.pollIntervals.get a.id)

def noHealth (provider : ProviderId) : ProviderHealth where
  provider
  accounts := []
  consecutiveFailures := 0
  lastError := none
  discoveryError := none

/-- One more account of a provider. -/
def addAccount (row : AccountHealth) (p : ProviderHealth) : ProviderHealth :=
  { p with
    consecutiveFailures := max p.consecutiveFailures row.consecutiveFailures
    lastError := if p.lastError.isNone then row.lastError else p.lastError
    accounts := p.accounts ++ [row] }

def addDiscoveryError (e : ProviderId × String) (p : ProviderHealth) : ProviderHealth :=
  { p with discoveryError := some e.2 }

/-- The accounts counted by their provider. -/
def byProvider (d : Daemon F) (accounts : List Account) : List ProviderHealth :=
  group (·.provider) noHealth Account.provider (fun a => addAccount (d.accountHealth a)) []
    accounts

def withErrors (rows : List ProviderHealth) (discoveryErrors : List (ProviderId × String)) :
    List ProviderHealth :=
  group (·.provider) noHealth Prod.fst addDiscoveryError rows discoveryErrors

/-- Assemble the `Providers` payload. -/
def providerHealth (d : Daemon F) (discoveryErrors : List (ProviderId × String)) :
    List ProviderHealth :=
  (withErrors (d.byProvider d.state.accounts) discoveryErrors).mergeSort
    fun a b => decide (a.provider ≤ b.provider)

def accountsOf (accounts : List Account) (provider : ProviderId) : List Account :=
  accounts.filter fun a => decide (a.provider = provider)

private theorem accountsOf_eq_nil_iff {accounts : List Account} {provider : ProviderId} :
    accountsOf accounts provider = [] ↔ provider ∉ accounts.map (·.provider) := by
  rw [accountsOf, List.filter_eq_nil_iff, List.mem_map]
  constructor
  · rintro h ⟨a, ha, hprovider⟩
    exact h a ha (decide_eq_true hprovider)
  · intro h a ha hprovider
    exact h ⟨a, ha, of_decide_eq_true hprovider⟩

/-- The row of a provider with these accounts, and perhaps an error of its discovery. -/
def healthOf (provider : ProviderId) (accounts : List AccountHealth)
    (discoveryError : Option String) : ProviderHealth where
  provider
  accounts
  consecutiveFailures := (accounts.map (·.consecutiveFailures)).foldl max 0
  lastError := accounts.findSome? (·.lastError)
  discoveryError

theorem addAccount_healthOf (provider : ProviderId) (rows : List AccountHealth)
    (row : AccountHealth) :
    addAccount row (healthOf provider rows none) = healthOf provider (rows ++ [row]) none := by
  have hfirst : ∀ p : ProviderHealth, addAccount row p = { p with
      consecutiveFailures := max p.consecutiveFailures row.consecutiveFailures
      lastError := p.lastError.or row.lastError
      accounts := p.accounts ++ [row] } := by
    rintro ⟨provider, accounts, failures, _ | error, discoveryError⟩
    · rfl
    · rfl
  rw [hfirst]
  simp only [healthOf, List.map_append, List.foldl_append, List.map_cons, List.map_nil,
    List.foldl_cons, List.foldl_nil, List.findSome?_append, List.findSome?_singleton]

private theorem foldl_addAccount (provider : ProviderId) (rows more : List AccountHealth) :
    more.foldl (fun p row => addAccount row p) (healthOf provider rows none) =
      healthOf provider (rows ++ more) none := by
  induction more generalizing rows with
  | nil => rw [List.append_nil, List.foldl_nil]
  | cons row more ih =>
    rw [List.foldl_cons, addAccount_healthOf, ih, List.append_assoc]
    rfl

private theorem row?_byProvider (d : Daemon F) (accounts : List Account) (provider : ProviderId) :
    row? (·.provider) (d.byProvider accounts) provider =
      if provider ∈ accounts.map (·.provider) then
        some (healthOf provider ((accountsOf accounts provider).map d.accountHealth) none)
      else none := by
  refine (row?_group (fun _ => rfl) ?_ accounts provider).trans ?_
  · exact fun _ _ => rfl
  change (if accountsOf accounts provider = [] then none else _) = _
  by_cases hmem : provider ∈ accounts.map (·.provider)
  · have hfold := foldl_addAccount provider []
      ((accountsOf accounts provider).map d.accountHealth)
    rw [List.foldl_map, List.nil_append] at hfold
    rw [if_pos hmem, if_neg fun h => accountsOf_eq_nil_iff.mp h hmem]
    exact congrArg some hfold
  · rw [if_neg hmem, if_pos (accountsOf_eq_nil_iff.mpr hmem)]

private theorem filter_eq_find? {errors : List (ProviderId × String)}
    (hnodup : (errors.map (·.1)).Nodup)
    (provider : ProviderId) : (errors.filter fun e => decide (e.1 = provider)) =
      (errors.find? fun e => e.1 == provider).toList := by
  induction errors with
  | nil => rfl
  | cons e errors ih =>
    rw [List.map_cons, List.nodup_cons] at hnodup
    rw [List.filter_cons, List.find?_cons]
    by_cases he : e.1 = provider
    · have hrest : (errors.filter fun e => decide (e.1 = provider)) = [] := by
        rw [List.filter_eq_nil_iff]
        intro e' he' heq
        exact hnodup.1 (List.mem_map.mpr ⟨e', he', (of_decide_eq_true heq).trans he.symm⟩)
      simp [he, hrest]
    · rw [if_neg (by simp [he]), beq_eq_false_iff_ne.mpr he]
      exact ih hnodup.2

private theorem row?_withErrors {rows : List ProviderHealth} {errors : List (ProviderId × String)}
    (hnodup : (errors.map (·.1)).Nodup) (provider : ProviderId) :
    row? (·.provider) (withErrors rows errors) provider =
      match errors.find? fun e => e.1 == provider with
      | none => row? (·.provider) rows provider
      | some e => some (addDiscoveryError e
          ((row? (·.provider) rows provider).getD (noHealth provider))) := by
  refine (row?_group (fun _ => rfl) ?_ errors provider).trans ?_
  · exact fun _ _ => rfl
  rw [filter_eq_find? hnodup]
  cases errors.find? fun e => e.1 == provider with
  | none => rfl
  | some e => rfl

private theorem nodup_withErrors (d : Daemon F) (errors : List (ProviderId × String)) :
    ((withErrors (d.byProvider d.state.accounts) errors).map (·.provider)).Nodup := by
  refine nodup_group (fun _ => rfl) ?_ ?_ errors
  · exact fun _ _ => rfl
  · refine nodup_group (fun _ => rfl) ?_ ?_ d.state.accounts
    · exact fun _ _ => rfl
    · exact List.nodup_nil

private theorem row?_providers (d : Daemon F) {errors : List (ProviderId × String)}
    (hnodup : (errors.map (·.1)).Nodup) (provider : ProviderId) :
    row? (·.provider) (withErrors (d.byProvider d.state.accounts) errors) provider =
      if provider ∈ d.state.accounts.map (·.provider) ∨ provider ∈ errors.map (·.1) then
        some (healthOf provider
          ((accountsOf d.state.accounts provider).map d.accountHealth)
          ((errors.find? fun e => e.1 == provider).map (·.2)))
      else none := by
  rw [row?_withErrors hnodup, row?_byProvider]
  cases herror : errors.find? fun e => e.1 == provider with
  | none =>
    have hmem : provider ∉ errors.map (·.1) := by
      intro hmem
      obtain ⟨e, he, hprovider⟩ := List.mem_map.mp hmem
      exact List.find?_eq_none.mp herror e he (beq_iff_eq.mpr hprovider)
    simp only [hmem, or_false, Option.map_none]
  | some e =>
    have hprovider := List.find?_some herror
    have hmem : provider ∈ errors.map (·.1) :=
      List.mem_map.mpr ⟨e, List.mem_of_find?_eq_some herror, beq_iff_eq.mp hprovider⟩
    rw [if_pos (Or.inr hmem)]
    by_cases haccounts : provider ∈ d.state.accounts.map (·.provider)
    · rw [if_pos haccounts]
      rfl
    · rw [if_neg haccounts, accountsOf_eq_nil_iff.mpr haccounts]
      rfl

/-- A row for every provider with an account or a discovery error, in the order of their names. -/
theorem providerHealth_spec (d : Daemon F) {errors : List (ProviderId × String)}
    (hnodup : (errors.map (·.1)).Nodup) :
    ((d.providerHealth errors).map (·.provider)).Pairwise (· < ·) ∧
      ∀ h, h ∈ d.providerHealth errors ↔
        (h.provider ∈ d.state.accounts.map (·.provider) ∨ h.provider ∈ errors.map (·.1)) ∧
          h = healthOf h.provider
            ((accountsOf d.state.accounts h.provider).map d.accountHealth)
            ((errors.find? fun e => e.1 == h.provider).map (·.2)) := by
  have hperm : (d.providerHealth errors).Perm
      (withErrors (d.byProvider d.state.accounts) errors) := List.mergeSort_perm _ _
  constructor
  · have hsorted : ((d.providerHealth errors).map (·.provider)).Pairwise (· ≤ ·) := by
      rw [List.pairwise_map]
      refine (List.pairwise_mergeSort ?_ ?_ _).imp of_decide_eq_true
      · intro a b c hab hbc
        exact decide_eq_true ((of_decide_eq_true hab).trans (of_decide_eq_true hbc))
      · intro a b
        rw [Bool.or_eq_true, decide_eq_true_iff, decide_eq_true_iff]
        exact le_total a.provider b.provider
    have hdistinct : ((d.providerHealth errors).map (·.provider)).Pairwise (· ≠ ·) :=
      (hperm.map _).nodup_iff.mpr (nodup_withErrors d errors)
    exact (hsorted.and hdistinct).imp fun h => lt_of_le_of_ne h.1 h.2
  · intro h
    rw [hperm.mem_iff, mem_iff_row? (nodup_withErrors d errors), row?_providers d hnodup]
    split
    · rename_i hlisted
      rw [Option.some_inj, eq_comm]
      exact (and_iff_right hlisted).symm
    · rename_i hlisted
      exact iff_of_false (by simp) fun h => hlisted h.1

end Daemon

namespace Discovery

private theorem nodup_otherErrors {s : Discovery F} (h : (s.discoveryErrors.map (·.1)).Nodup)
    (provider : ProviderId) : ((s.otherErrors provider).map (·.1)).Nodup :=
  (List.filter_sublist.map _).nodup h

private theorem nodup_newError {s : Discovery F} (h : (s.discoveryErrors.map (·.1)).Nodup)
    (provider : ProviderId) (message : String) :
    ((s.otherErrors provider ++ [(provider, message)]).map (·.1)).Nodup := by
  rw [List.map_append, List.nodup_append]
  refine ⟨nodup_otherErrors h provider, List.nodup_singleton provider, ?_⟩
  rintro p hp q hq rfl
  obtain rfl := List.mem_singleton.mp hq
  obtain ⟨e, he, heq⟩ := List.mem_map.mp hp
  have hne := (List.mem_filter.mp he).2
  rw [heq, bne_self_eq_false] at hne
  cases hne

variable [F64 F] {json : SerdeJson F}

private theorem nodup_discoveryErrors_step {s : Discovery F}
    (h : (s.discoveryErrors.map (·.1)).Nodup)
    (i : DiscoveryInput F) : ((s.step json i).discoveryErrors.map (·.1)).Nodup := by
  have hgoes := goes_step json s i
  generalize s.step json i = s' at hgoes ⊢
  cases hgoes with
  | idle => exact h
  | polled input haccounts => exact h
  | moved _ ht hmoves hstop => exact h
  | @startup adapter rest hstarting answer env =>
    rcases answer with message | _ | ⟨a, accounts⟩
    · exact nodup_newError h adapter.provider message
    · exact h
    · exact h
  | @answered task t ht hphase answer env =>
    rcases answer with message | _ | ⟨a, accounts⟩
    · exact nodup_newError h t.adapter.provider message
    · exact nodup_otherErrors h t.adapter.provider
    · exact nodup_otherErrors h t.adapter.provider

/-- The providers that have an account or a discovery error, once each and in the order of their
names, each with its accounts as they were registered, the most failures in a row, the first
error, and its discovery error. -/
structure Reports (s : Discovery F) (rows : List ProviderHealth) : Prop where
  sorted : (rows.map (·.provider)).Pairwise (· < ·)
  mem_iff : ∀ h, h ∈ rows ↔
    (h.provider ∈ s.accounts.map (·.provider) ∨ h.provider ∈ s.discoveryErrors.map (·.1)) ∧
      h = Daemon.healthOf h.provider
        ((Daemon.accountsOf s.accounts h.provider).map s.polls.daemon.accountHealth)
        (s.discoveryError h.provider)

/-- Whatever the daemon has done, `Providers` reports its health. -/
theorem providers_reply (storage : Storage F) (path : String) (now : DateTime)
    (adapters : List (Adapter F)) (inputs : List (DiscoveryInput F)) :
    ((boot storage path adapters now).run json inputs).Reports
      (((boot storage path adapters now).run json inputs).polls.daemon.providerHealth
        ((boot storage path adapters now).run json inputs).discoveryErrors) := by
  have herrors : (((boot storage path adapters now).run json inputs).discoveryErrors.map
      (·.1)).Nodup := by
    refine @foldl_invariant _ _ (step json)
      (fun s : Discovery F => (s.discoveryErrors.map (·.1)).Nodup) _ inputs ?_ ?_
    · exact List.nodup_nil
    · exact fun s i h => nodup_discoveryErrors_step h i
  obtain ⟨hsorted, hmem⟩ := Daemon.providerHealth_spec
    ((boot storage path adapters now).run json inputs).polls.daemon herrors
  exact ⟨hsorted, hmem⟩

end Discovery
end Teiryo
