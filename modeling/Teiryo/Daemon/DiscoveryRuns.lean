import Teiryo.Daemon.Discovery

/-!
# What discovery keeps

Over any run of the daemon: a provider's accounts are started once, its discovery error is the
last answer's, it is asked again while it has no accounts, and not while it is disabled.
-/

namespace Teiryo

namespace Discovery

variable {F : Type}

/-! ## One discovery that finds accounts -/

def lastAnswer (s : Discovery F) (provider : ProviderId) : Option Discovered :=
  (s.answersOf provider).getLast?

/-- The accounts that an answer starts. -/
def startedBy : Option Discovered → List Account
  | some (.ok accounts) => accounts
  | _ => []

def errorOf : Option Discovered → Option String
  | some (.error message) => some message
  | _ => none

/-- Whose the tasks are, and which of them are done. -/
def board (s : Discovery F) : List (ProviderId × Bool) :=
  s.tasks.map fun t => (t.adapter.provider, decide (t.phase = .finished))

/-- The accounts of a provider are those of the one answer that had any, its discovery error is
the last answer's, and a task asks again exactly while the last answer had none. -/
structure Kept (s : Discovery F) (provider : ProviderId) : Prop where
  failed : ∀ answer ∈ (s.answersOf provider).dropLast, answer.found = false
  accounts : (s.accounts.filter fun a => a.provider == provider) =
    startedBy (s.lastAnswer provider)
  error : s.discoveryError provider = errorOf (s.lastAnswer provider)
  asking : (provider, false) ∈ s.board →
    ∃ answer, s.lastAnswer provider = some answer ∧ answer.found = false
  seeking : ∀ answer, s.lastAnswer provider = some answer → answer.found = false →
    (provider, false) ∈ s.board
  starting : provider ∈ s.starting.map (·.provider) →
    s.answersOf provider = [] ∧ ∀ done, (provider, done) ∉ s.board

structure Inv (s : Discovery F) : Prop where
  starting : (s.starting.map (·.provider)).Nodup
  board : (s.board.map (·.1)).Nodup
  kept : ∀ provider, s.Kept provider

/-- The accounts an answer lists are its adapter's own. -/
def OwnAccounts (s : Discovery F) : DiscoveryInput F → Prop
  | .startup answer _ => ∀ adapter ∈ s.starting.head?, ∀ a ∈ startedBy (some answer),
      a.provider = adapter.provider
  | .answered task answer _ => ∀ t ∈ s.tasks[task]?, ∀ a ∈ startedBy (some answer),
      a.provider = t.adapter.provider
  | _ => True

instance (s : Discovery F) (i : DiscoveryInput F) : Decidable (s.OwnAccounts i) :=
  match i with
  | .startup answer _ => inferInstanceAs (Decidable (∀ adapter ∈ s.starting.head?,
      ∀ a ∈ startedBy (some answer), a.provider = adapter.provider))
  | .answered task answer _ => inferInstanceAs (Decidable (∀ t ∈ s.tasks[task]?,
      ∀ a ∈ startedBy (some answer), a.provider = t.adapter.provider))
  | .started _ => inferInstanceAs (Decidable True)
  | .elapsed _ => inferInstanceAs (Decidable True)
  | .configChanged _ => inferInstanceAs (Decidable True)
  | .shutdown _ => inferInstanceAs (Decidable True)
  | .poll _ => inferInstanceAs (Decidable True)

variable {s s' : Discovery F} {p q : ProviderId}

theorem Kept.congr (h : s.Kept p) (hanswers : s'.answersOf p = s.answersOf p)
    (haccounts : (s'.accounts.filter fun a => a.provider == p) =
      s.accounts.filter fun a => a.provider == p)
    (herror : s'.discoveryError p = s.discoveryError p)
    (hboard : ∀ done, (p, done) ∈ s'.board ↔ (p, done) ∈ s.board)
    (hstarting : p ∈ s'.starting.map (·.provider) → p ∈ s.starting.map (·.provider)) :
    s'.Kept p := by
  have hlast : s'.lastAnswer p = s.lastAnswer p := by rw [lastAnswer, hanswers, lastAnswer]
  refine ⟨?_, ?_, ?_, ?_, ?_, ?_⟩
  · rw [hanswers]
    exact h.failed
  · rw [haccounts, hlast]
    exact h.accounts
  · rw [herror, hlast]
    exact h.error
  · rw [hboard, hlast]
    exact h.asking
  · rw [hboard, hlast]
    exact h.seeking
  · intro hp
    obtain ⟨hnone, htask⟩ := h.starting (hstarting hp)
    exact ⟨hanswers.trans hnone, fun done hdone => htask done ((hboard done).mp hdone)⟩

private theorem startedBy_eq_nil {answer : Discovered} (h : answer.found = false) :
    startedBy (some answer) = [] := by
  cases answer with
  | error message => rfl
  | ok accounts =>
    cases accounts with
    | nil => rfl
    | cons a accounts => cases h

private theorem Kept.no_accounts (h : s.Kept q)
    (hlast : ∀ last ∈ s.lastAnswer q, last.found = false) :
    (s.accounts.filter fun a => a.provider == q) = [] := by
  rw [h.accounts]
  cases hbefore : s.lastAnswer q with
  | none => rfl
  | some last => exact startedBy_eq_nil (hlast last hbefore)

/-- What one more answer of a provider keeps, if none before it had accounts. -/
theorem Kept.answer (h : s.Kept q) (hlast : ∀ last ∈ s.lastAnswer q, last.found = false)
    {answer : Discovered} (hanswers : s'.answersOf q = s.answersOf q ++ [answer])
    (haccounts : (s'.accounts.filter fun a => a.provider == q) =
      (s.accounts.filter fun a => a.provider == q) ++ startedBy (some answer))
    (herror : s'.discoveryError q = errorOf (some answer))
    (hboard : (q, false) ∈ s'.board ↔ answer.found = false)
    (hstarting : q ∉ s'.starting.map (·.provider)) : s'.Kept q := by
  have hnow : s'.lastAnswer q = some answer := by
    rw [lastAnswer, hanswers, List.getLast?_concat]
  refine ⟨?_, ?_, ?_, ?_, ?_, ?_⟩
  · intro a ha
    rw [hanswers, List.dropLast_concat] at ha
    rcases List.eq_nil_or_concat (s.answersOf q) with hnil | ⟨before, last, heq⟩
    · rw [hnil] at ha
      cases ha
    · rw [List.concat_eq_append] at heq
      rw [heq] at ha
      rcases List.mem_append.mp ha with ha | ha
      · apply h.failed
        rw [heq, List.dropLast_concat]
        exact ha
      · obtain rfl := List.mem_singleton.mp ha
        apply hlast
        rw [lastAnswer, heq, List.getLast?_concat]
        rfl
  · rw [haccounts, h.no_accounts hlast, hnow, List.nil_append]
  · rw [herror, hnow]
  · intro hasking
    exact ⟨answer, hnow, hboard.mp hasking⟩
  · intro a ha hfound
    rw [hnow] at ha
    cases ha
    exact hboard.mpr hfound
  · exact fun hq => absurd hq hstarting

private theorem board_setTask (s : Discovery F) (task : Nat) (t : Rediscovery F) :
    (s.setTask task t).board =
      s.board.set task (t.adapter.provider, decide (t.phase = .finished)) :=
  List.map_set

private theorem board_setTask_live {task : Nat} {t t' : Rediscovery F}
    (ht : s.tasks[task]? = some t)
    (hadapter : t'.adapter = t.adapter) (hbefore : t.phase ≠ .finished)
    (hafter : t'.phase ≠ .finished) : (s.setTask task t').board = s.board := by
  have hsame : s.board[task]? = some (t'.adapter.provider, decide (t'.phase = .finished)) := by
    rw [board, List.getElem?_map, ht, Option.map_some, hadapter, decide_eq_false hbefore,
      decide_eq_false hafter]
  rw [board_setTask]
  apply List.ext_getElem?
  intro i
  by_cases hi : task = i
  · subst hi
    rw [List.getElem?_set_self', hsame]
    rfl
  · rw [List.getElem?_set_ne hi]

private theorem mem_set_done {board : List (ProviderId × Bool)} {i : Nat}
    (hi : board[i]? = some (q, false)) (hnodup : (board.map (·.1)).Nodup) (done : Bool) :
    (p, done) ∈ board.set i (q, true) ↔ if p = q then done = true else (p, done) ∈ board := by
  induction board generalizing i with
  | nil => cases hi
  | cons e board ih =>
    rw [List.map_cons, List.nodup_cons] at hnodup
    cases i with
    | zero =>
      cases hi
      rw [List.set_cons_zero, List.mem_cons, Prod.mk.injEq]
      split
      · rename_i hp
        subst hp
        have hnot : (p, done) ∉ board := by
          intro hmem
          exact hnodup.1 (List.mem_map.mpr ⟨(p, done), hmem, rfl⟩)
        simp [hnot]
      · rename_i hp
        simp [hp]
    | succ i =>
      rw [List.getElem?_cons_succ] at hi
      have hne : e.1 ≠ q := by
        intro he
        exact hnodup.1 (he ▸ List.mem_map_of_mem (List.mem_of_getElem? hi))
      rw [List.set_cons_succ, List.mem_cons, ih hi hnodup.2]
      split
      · rename_i hp
        subst hp
        have hnot : (p, done) ≠ e := by
          rintro rfl
          exact hne rfl
        simp [hnot]
      · rw [List.mem_cons]

private theorem filter_answer (answers : List (ProviderId × Discovered)) (p q : ProviderId)
    (answer : Discovered) :
    ((answers ++ [(q, answer)]).filter fun a => a.1 == p).map (·.2) =
      ((answers.filter fun a => a.1 == p).map (·.2)) ++ if q = p then [answer] else [] := by
  rw [List.filter_append, List.map_append]
  by_cases hqp : q = p
  · simp [hqp]
  · simp [hqp]

private theorem find?_otherErrors (errors more : List (ProviderId × String)) (p q : ProviderId)
    (hmore : ∀ e ∈ more, e.1 = q) :
    ((errors.filter fun e => e.1 != q) ++ more).find? (fun e => e.1 == p) =
      if p = q then more.head? else errors.find? fun e => e.1 == p := by
  have hfilter : ((errors.filter fun e => e.1 != q).find? fun e => e.1 == p) =
      if p = q then none else errors.find? fun e => e.1 == p := by
    rw [List.find?_filter]
    split
    · rename_i hpq
      rw [List.find?_eq_none]
      intro e _
      simp [hpq]
    · rename_i hpq
      congr 1
      funext e
      by_cases he : e.1 = p
      · simp [he, hpq]
      · simp [he]
  have hmore' : (more.find? fun e => e.1 == p) = if p = q then more.head? else none := by
    split
    · rename_i hpq
      cases more with
      | nil => rfl
      | cons e more => simp [hmore e List.mem_cons_self, hpq]
    · rename_i hpq
      rw [List.find?_eq_none]
      intro e he
      simp [hmore e he, Ne.symm hpq]
  rw [List.find?_append, hfilter, hmore']
  split
  · exact Option.none_or
  · exact Option.or_none

private theorem inv_answer (h : s.Inv) (hlast : ∀ last ∈ s.lastAnswer q, last.found = false)
    {answer : Discovered} (hown : ∀ a ∈ startedBy (some answer), a.provider = q)
    (hanswers : s'.answers = s.answers ++ [(q, answer)])
    (haccounts : s'.accounts = s.accounts ++ startedBy (some answer))
    (herror : ∀ p, s'.discoveryError p =
      if p = q then errorOf (some answer) else s.discoveryError p)
    (hother : ∀ p done, p ≠ q → ((p, done) ∈ s'.board ↔ (p, done) ∈ s.board))
    (hboard : (q, false) ∈ s'.board ↔ answer.found = false)
    (hnodup : (s'.board.map (·.1)).Nodup)
    (hstarting : s'.starting.Sublist s.starting) (hgone : q ∉ s'.starting.map (·.provider)) :
    s'.Inv := by
  have hanswersOf : ∀ p, s'.answersOf p = s.answersOf p ++ if q = p then [answer] else [] := by
    intro p
    rw [answersOf, hanswers]
    exact filter_answer s.answers p q answer
  refine ⟨(hstarting.map _).nodup h.starting, hnodup, ?_⟩
  intro p
  by_cases hpq : p = q
  · subst hpq
    refine (h.kept p).answer hlast ?_ ?_ ?_ hboard hgone
    · rw [hanswersOf p, if_pos rfl]
    · rw [haccounts, List.filter_append]
      congr 1
      apply List.filter_eq_self.mpr
      intro a ha
      exact beq_iff_eq.mpr (hown a ha)
    · rw [herror, if_pos rfl]
  · refine (h.kept p).congr ?_ ?_ ?_ (fun done => hother p done hpq) ?_
    · rw [hanswersOf p, if_neg (Ne.symm hpq), List.append_nil]
    · have hnone : ((startedBy (some answer)).filter fun a => a.provider == p) = [] := by
        apply List.filter_eq_nil_iff.mpr
        intro a ha
        rw [hown a ha, beq_iff_eq]
        exact Ne.symm hpq
      rw [haccounts, List.filter_append, hnone, List.append_nil]
    · rw [herror, if_neg hpq]
    · exact fun hp => (hstarting.map _).subset hp

private theorem inv_congr (h : s.Inv) (hanswers : s'.answers = s.answers)
    (haccounts : s'.accounts = s.accounts) (herrors : s'.discoveryErrors = s.discoveryErrors)
    (hstarting : s'.starting = s.starting) (hboard : s'.board = s.board) : s'.Inv := by
  refine ⟨hstarting ▸ h.starting, hboard ▸ h.board, ?_⟩
  intro p
  refine (h.kept p).congr ?_ (by rw [haccounts]) ?_ (fun done => by rw [hboard]) ?_
  · rw [answersOf, hanswers, answersOf]
  · rw [discoveryError, herrors, discoveryError]
  · rw [hstarting]
    exact id

section Runs

variable [F64 F] {json : SerdeJson F}

private theorem startAccounts_accounts (polls : PollSystem F) (adapter : Adapter F) (env : StartEnv)
    (accounts : List Account) :
    (startAccounts json polls adapter env accounts).daemon.state.accounts =
      polls.daemon.state.accounts ++ accounts := by
  induction accounts generalizing polls with
  | nil => exact (List.append_nil _).symm
  | cons a accounts ih =>
    rw [startAccounts, List.foldl_cons]
    refine (ih _).trans ?_
    rw [(PollSystem.step_frame json polls _).1, List.append_assoc]
    rfl

omit [F64 F] in
private theorem board_spawnRediscovery (s : Discovery F) (adapter : Adapter F) :
    (s.spawnRediscovery adapter).board = s.board ++ [(adapter.provider, false)] :=
  List.map_append

omit [F64 F] in
private theorem Inv.lastAnswer_starting (h : s.Inv) {adapter : Adapter F} {rest : List (Adapter F)}
    (hstarting : s.starting = adapter :: rest) : s.lastAnswer adapter.provider = none := by
  have hq : adapter.provider ∈ s.starting.map (·.provider) := by
    rw [hstarting]
    exact List.mem_cons_self
  rw [lastAnswer, ((h.kept adapter.provider).starting hq).1]
  rfl

omit [F64 F] in
private theorem Inv.lastAnswer_asking (h : s.Inv) {task : Nat} {t : Rediscovery F}
    (ht : s.tasks[task]? = some t) (hphase : t.phase = .discovering) :
    ∀ last ∈ s.lastAnswer t.adapter.provider, last.found = false := by
  have hasked : (t.adapter.provider, false) ∈ s.board :=
    List.mem_map.mpr ⟨t, List.mem_of_getElem? ht, by rw [hphase]; rfl⟩
  obtain ⟨answer, hanswer, hfound⟩ := (h.kept t.adapter.provider).asking hasked
  intro last hmem
  rw [hanswer] at hmem
  cases hmem
  exact hfound

private theorem inv_startup (h : s.Inv) {adapter : Adapter F} {rest : List (Adapter F)}
    (hstarting : s.starting = adapter :: rest) (answer : Discovered) (env : StartEnv)
    (hown : ∀ a ∈ startedBy (some answer), a.provider = adapter.provider) :
    (s.startup json adapter rest answer env).Inv := by
  have hq : adapter.provider ∈ s.starting.map (·.provider) := by
    rw [hstarting]
    exact List.mem_cons_self
  have hnew := ((h.kept adapter.provider).starting hq).2
  have hlast : s.lastAnswer adapter.provider = none := h.lastAnswer_starting hstarting
  have hbefore : ∀ last ∈ s.lastAnswer adapter.provider, last.found = false := by
    intro last hmem
    rw [hlast] at hmem
    cases hmem
  have hnoError : s.discoveryError adapter.provider = none := by
    rw [(h.kept adapter.provider).error, hlast]
    rfl
  have hrest : rest.Sublist s.starting := by
    rw [hstarting]
    exact List.sublist_cons_self adapter rest
  have hgone : adapter.provider ∉ rest.map (·.provider) := by
    have hnodup := h.starting
    rw [hstarting, List.map_cons, List.nodup_cons] at hnodup
    exact hnodup.1
  -- a task for an adapter that had none before
  have hspawned : ∀ p done, p ≠ adapter.provider →
      ((p, done) ∈ s.board ++ [(adapter.provider, false)] ↔ (p, done) ∈ s.board) := by
    intro p done hp
    simp [hp]
  have hnodup : ((s.board ++ [(adapter.provider, false)]).map (·.1)).Nodup := by
    rw [List.map_append, List.map_cons, List.map_nil, List.nodup_append]
    refine ⟨h.board, List.nodup_singleton _, ?_⟩
    rintro p hp p' hp' rfl
    obtain rfl := List.mem_singleton.mp hp'
    obtain ⟨⟨p, done⟩, hmem, rfl⟩ := List.mem_map.mp hp
    exact hnew done hmem
  cases answer with
  | error message =>
    have hboard : (s.startup json adapter rest (.error message) env).board =
        s.board ++ [(adapter.provider, false)] := board_spawnRediscovery _ _
    refine inv_answer h hbefore hown rfl (List.append_nil _).symm ?_ ?_ ?_ ?_ ?_ ?_
    · intro p
      have hfind := find?_otherErrors s.discoveryErrors [(adapter.provider, message)] p
        adapter.provider (by simp)
      change ((s.otherErrors adapter.provider ++ _).find? _).map _ = _
      rw [otherErrors, hfind]
      split
      · rfl
      · rfl
    · rw [hboard]
      exact hspawned
    · rw [hboard]
      exact iff_of_true (List.mem_append_right _ (List.mem_singleton_self _)) rfl
    · rw [hboard]
      exact hnodup
    · exact hrest
    · exact hgone
  | ok accounts =>
    have herror : ∀ p, s.discoveryError p =
        if p = adapter.provider then none else s.discoveryError p := by
      intro p
      split
      · rename_i hp
        rw [hp, hnoError]
      · rfl
    cases accounts with
    | nil =>
      have hboard : (s.startup json adapter rest (.ok []) env).board =
          s.board ++ [(adapter.provider, false)] := board_spawnRediscovery _ _
      refine inv_answer h hbefore hown rfl (List.append_nil _).symm herror ?_ ?_ ?_ hrest hgone
      · rw [hboard]
        exact hspawned
      · rw [hboard]
        exact iff_of_true (List.mem_append_right _ (List.mem_singleton_self _)) rfl
      · rw [hboard]
        exact hnodup
    | cons a accounts =>
      exact inv_answer h hbefore hown rfl (startAccounts_accounts _ _ _ _) herror
        (fun _ _ _ => Iff.rfl) (iff_of_false (hnew false) (by simp [Discovered.found])) h.board
        hrest hgone

private theorem inv_answered (h : s.Inv) {task : Nat} {t : Rediscovery F}
    (ht : s.tasks[task]? = some t)
    (hphase : t.phase = .discovering) (answer : Discovered) (env : StartEnv)
    (hown : ∀ a ∈ startedBy (some answer), a.provider = t.adapter.provider) :
    (s.answered json task t answer env).Inv := by
  have hentry : s.board[task]? = some (t.adapter.provider, false) := by
    rw [board, List.getElem?_map, ht, Option.map_some, hphase]
    rfl
  have hasked : (t.adapter.provider, false) ∈ s.board := List.mem_of_getElem? hentry
  have hbefore : ∀ last ∈ s.lastAnswer t.adapter.provider, last.found = false :=
    h.lastAnswer_asking ht hphase
  have hgone : t.adapter.provider ∉ s.starting.map (·.provider) := fun hmem =>
    ((h.kept t.adapter.provider).starting hmem).2 false hasked
  have herrors : ∀ (more : List (ProviderId × String)), (∀ e ∈ more, e.1 = t.adapter.provider) →
      ∀ p, ((s.otherErrors t.adapter.provider ++ more).find? fun e => e.1 == p).map (·.2) =
        if p = t.adapter.provider then more.head?.map (·.2) else s.discoveryError p := by
    intro more hmore p
    rw [otherErrors, find?_otherErrors s.discoveryErrors more p _ hmore]
    split
    · rfl
    · rfl
  have hlive : (s.setTask task (t.iterate s.config)).board = s.board :=
    board_setTask_live ht (iterate_live _ t).1 (by rw [hphase]; simp) (iterate_live _ t).2.1
  cases answer with
  | error message =>
    refine inv_answer h hbefore hown rfl (List.append_nil _).symm
      (herrors [(t.adapter.provider, message)] (by simp)) ?_ ?_ ?_ (List.Sublist.refl _) hgone
    · exact fun p done _ => by rw [← hlive]; rfl
    · exact iff_of_true (hlive ▸ hasked) rfl
    · exact hlive ▸ h.board
  | ok accounts =>
    cases accounts with
    | nil =>
      refine inv_answer h hbefore hown rfl (List.append_nil _).symm ?_ ?_ ?_ ?_
        (List.Sublist.refl _) hgone
      · intro p
        have herror := herrors [] (by simp) p
        rw [List.append_nil] at herror
        exact herror
      · exact fun p done _ => by rw [← hlive]; rfl
      · exact iff_of_true (hlive ▸ hasked) rfl
      · exact hlive ▸ h.board
    | cons a accounts =>
      have hdone : (s.setTask task { t with phase := .finished }).board =
          s.board.set task (t.adapter.provider, true) := board_setTask s task _
      have hnames : (s.board.set task (t.adapter.provider, true)).map (·.1) =
          s.board.map (·.1) := by
        rw [List.map_set]
        apply List.ext_getElem?
        intro i
        by_cases hi : task = i
        · subst hi
          rw [List.getElem?_set_self', List.getElem?_map, hentry]
          rfl
        · rw [List.getElem?_set_ne hi]
      refine inv_answer h hbefore hown rfl (startAccounts_accounts _ _ _ _) ?_ ?_ ?_ ?_
        (List.Sublist.refl _) hgone
      · intro p
        have herror := herrors [] (by simp) p
        rw [List.append_nil] at herror
        exact herror
      · intro p done hp
        change (p, done) ∈ (s.setTask task { t with phase := .finished }).board ↔ _
        rw [hdone, mem_set_done hentry h.board, if_neg hp]
      · change (_, false) ∈ (s.setTask task { t with phase := .finished }).board ↔ _
        rw [hdone, mem_set_done hentry h.board, if_pos rfl]
        exact iff_of_false (by simp) (by simp [Discovered.found])
      · change ((s.setTask task { t with phase := .finished }).board.map (·.1)).Nodup
        rw [hdone, hnames]
        exact h.board

theorem inv_step (h : s.Inv) (i : DiscoveryInput F) (hown : s.OwnAccounts i) :
    (s.step json i).Inv := by
  have hgoes := goes_step json s i
  generalize s.step json i = s' at hgoes ⊢
  cases hgoes with
  | idle => exact h
  | polled input haccounts => exact inv_congr h rfl haccounts rfl rfl rfl
  | moved _ ht hmoves hstop =>
    obtain ⟨hadapter, hbefore, hafter⟩ := hmoves.live
    exact inv_congr h rfl rfl rfl rfl (board_setTask_live ht hadapter hbefore hafter)
  | startup hstarting answer env =>
    refine inv_startup h hstarting answer env (hown _ ?_)
    rw [hstarting]
    rfl
  | answered ht hphase answer env => exact inv_answered h ht hphase answer env (hown _ ht)

omit [F64 F] in
theorem inv_boot (storage : Storage F) (path : String) {adapters : List (Adapter F)}
    (hadapters : (adapters.map (·.provider)).Nodup) (now : DateTime) :
    (boot storage path adapters now).Inv := by
  refine ⟨hadapters, List.nodup_nil, ?_⟩
  intro p
  refine ⟨?_, rfl, rfl, ?_, ?_, ?_⟩
  · intro answer hanswer
    cases hanswer
  · intro hmem
    cases hmem
  · intro answer hanswer
    cases hanswer
  · exact fun _ => ⟨rfl, fun done hmem => by cases hmem⟩

private theorem step_answers (i : DiscoveryInput F) :
    s.answers <+: (s.step json i).answers ∧
      ∀ a ∈ s.starting, a ∈ (s.step json i).starting ∨
        ∃ answer, (a.provider, answer) ∈ (s.step json i).answers := by
  have hgoes := goes_step json s i
  generalize s.step json i = s' at hgoes ⊢
  cases hgoes with
  | idle => exact ⟨List.prefix_refl _, fun a ha => .inl ha⟩
  | polled input haccounts => exact ⟨List.prefix_refl _, fun a ha => .inl ha⟩
  | moved _ ht hmoves hstop => exact ⟨List.prefix_refl _, fun a ha => .inl ha⟩
  | @startup adapter rest hstarting answer env =>
    obtain ⟨hanswers, hrest⟩ : (s.startup json adapter rest answer env).answers =
          s.answers ++ [(adapter.provider, answer)] ∧
        (s.startup json adapter rest answer env).starting = rest := by
      rcases answer with message | _ | ⟨a, accounts⟩ <;> exact ⟨rfl, rfl⟩
    rw [hanswers, hrest, hstarting]
    refine ⟨List.prefix_append _ _, ?_⟩
    intro a ha
    rcases List.mem_cons.mp ha with rfl | ha
    · exact .inr ⟨answer, List.mem_append_right _ (List.mem_singleton_self _)⟩
    · exact .inl ha
  | @answered task t ht hphase answer env =>
    obtain ⟨hanswers, hrest⟩ : (s.answered json task t answer env).answers =
          s.answers ++ [(t.adapter.provider, answer)] ∧
        (s.answered json task t answer env).starting = s.starting := by
      rcases answer with message | _ | ⟨a, accounts⟩ <;> exact ⟨rfl, rfl⟩
    rw [hanswers, hrest]
    exact ⟨List.prefix_append _ _, fun a ha => .inl ha⟩

/-- Every adapter has been heard from, or startup is still to hear from it. -/
def Asked (adapters : List (Adapter F)) (s : Discovery F) : Prop :=
  ∀ a ∈ adapters, a ∈ s.starting ∨ ∃ answer, (a.provider, answer) ∈ s.answers

private theorem asked_step {adapters : List (Adapter F)} (h : Asked adapters s)
    (i : DiscoveryInput F) : Asked adapters (s.step json i) := by
  obtain ⟨hanswers, hstarting⟩ := @step_answers _ s _ json i
  intro a ha
  rcases h a ha with ha | ⟨answer, hanswer⟩
  · exact hstarting a ha
  · exact .inr ⟨answer, hanswers.subset hanswer⟩

/-- A task that has stopped was told to. -/
def StoppedByShutdown (s : Discovery F) (inputs : List (DiscoveryInput F)) : Prop :=
  ∀ task t, s.tasks[task]? = some t → t.phase = .stopped → .shutdown task ∈ inputs

private theorem stopped_step {i : DiscoveryInput F} {task : Nat} {t : Rediscovery F}
    (ht : (s.step json i).tasks[task]? = some t) (hstopped : t.phase = .stopped) :
    s.tasks[task]? = some t ∨ i = .shutdown task := by
  have hgoes := goes_step json s i
  generalize s.step json i = s' at hgoes ht
  cases hgoes with
  | idle => exact .inl ht
  | polled input haccounts => exact .inl ht
  | @moved _ task' u u' hu hmoves hstop =>
    by_cases htask : task' = task
    · subst htask
      have hlt : task' < s.tasks.length := (List.getElem?_eq_some_iff.mp hu).1
      have hset : (s.setTask task' u').tasks[task']? = some u' := List.getElem?_set_self hlt
      cases hset.symm.trans ht
      exact .inr (hstop hstopped)
    · have hset : (s.setTask task' u').tasks[task]? = s.tasks[task]? := List.getElem?_set_ne htask
      exact .inl (hset.symm.trans ht)
  | @startup adapter rest hstarting answer env =>
    obtain ⟨more, htasks, hmore⟩ : ∃ more, (s.startup json adapter rest answer env).tasks =
        s.tasks ++ more ∧ ∀ u ∈ more, u.phase = .spawned := by
      rcases answer with message | _ | ⟨a, accounts⟩
      · exact ⟨_, rfl, List.forall_mem_singleton.mpr rfl⟩
      · exact ⟨_, rfl, List.forall_mem_singleton.mpr rfl⟩
      · exact ⟨[], (List.append_nil _).symm, fun u hu => absurd hu List.not_mem_nil⟩
    rw [htasks, List.getElem?_append] at ht
    split at ht
    · exact .inl ht
    · have hspawned := hmore t (List.mem_of_getElem? ht)
      rw [hstopped] at hspawned
      cases hspawned
  | @answered task' u hu hphase answer env =>
    obtain ⟨u', htasks, hlive⟩ : ∃ u', (s.answered json task' u answer env).tasks =
        s.tasks.set task' u' ∧ u'.phase ≠ .stopped := by
      rcases answer with message | _ | ⟨a, accounts⟩
      · exact ⟨_, rfl, (iterate_live _ u).2.2⟩
      · exact ⟨_, rfl, (iterate_live _ u).2.2⟩
      · exact ⟨_, rfl, RediscoveryPhase.noConfusion⟩
    rw [htasks, List.getElem?_set] at ht
    split at ht
    · split at ht
      · cases ht
        exact absurd hstopped hlive
      · cases ht
    · exact .inl ht

theorem stoppedByShutdown_run (storage : Storage F) (path : String) (now : DateTime)
    (adapters : List (Adapter F)) (inputs : List (DiscoveryInput F)) :
    ((boot storage path adapters now).run json inputs).StoppedByShutdown inputs := by
  induction inputs using List.reverseRecOn with
  | nil =>
    intro task t ht
    cases ht
  | append_singleton inputs i ih =>
    intro task t ht hstopped
    rw [run, List.foldl_append] at ht
    rcases stopped_step ht hstopped with hbefore | rfl
    · exact List.mem_append_left _ (ih task t hbefore hstopped)
    · exact List.mem_append_right _ List.mem_cons_self

/-- What discovery has done for an adapter: no answer but the last had accounts, the provider's
accounts are the last answer's, each started once, and so is its discovery error; while it has no
accounts, startup or a task is going to ask the adapter, unless the shutdown reached that task. -/
structure Discovers (s : Discovery F) (inputs : List (DiscoveryInput F)) (adapter : Adapter F) :
    Prop where
  failed : ∀ answer ∈ (s.answersOf adapter.provider).dropLast, answer.found = false
  accounts : (s.accounts.filter fun a => a.provider == adapter.provider) =
    startedBy (s.lastAnswer adapter.provider)
  error : s.discoveryError adapter.provider = errorOf (s.lastAnswer adapter.provider)
  asked : startedBy (s.lastAnswer adapter.provider) = [] → adapter ∈ s.starting ∨
    ∃ task t, s.tasks[task]? = some t ∧ t.adapter.provider = adapter.provider ∧
      t.phase ≠ .finished ∧ (t.phase = .stopped → .shutdown task ∈ inputs)

omit [F64 F] in
theorem Inv.discovers (h : s.Inv) {inputs : List (DiscoveryInput F)}
    (hstopped : s.StoppedByShutdown inputs) {adapter : Adapter F}
    (hasked : adapter ∈ s.starting ∨ ∃ answer, (adapter.provider, answer) ∈ s.answers) :
    s.Discovers inputs adapter := by
  have hkept := h.kept adapter.provider
  refine ⟨hkept.failed, hkept.accounts, hkept.error, ?_⟩
  intro hnone
  rcases hasked with hstarting | ⟨answer, hanswer⟩
  · exact .inl hstarting
  · right
    have hmem : answer ∈ s.answersOf adapter.provider :=
      List.mem_map.mpr ⟨_, List.mem_filter.mpr ⟨hanswer, beq_self_eq_true _⟩, rfl⟩
    obtain ⟨last, hlast⟩ : ∃ last, s.lastAnswer adapter.provider = some last :=
      ⟨_, List.getLast?_eq_some_getLast (List.ne_nil_of_mem hmem)⟩
    have hfound : last.found = false := by
      rw [hlast] at hnone
      cases last with
      | error message => rfl
      | ok accounts =>
        cases accounts with
        | nil => rfl
        | cons account accounts => cases hnone
    obtain ⟨t, ht, heq⟩ := List.mem_map.mp (hkept.seeking last hlast hfound)
    rw [Prod.mk.injEq] at heq
    obtain ⟨task, htask⟩ := List.mem_iff_getElem?.mp ht
    exact ⟨task, t, htask, heq.1, of_decide_eq_false heq.2, hstopped task t htask⟩

theorem inv_run (storage : Storage F) (path : String) (now : DateTime)
    {adapters : List (Adapter F)} (hadapters : (adapters.map (·.provider)).Nodup)
    {inputs : List (DiscoveryInput F)}
    (hown : StepsMeet (step json) OwnAccounts (boot storage path adapters now) inputs) :
    ((boot storage path adapters now).run json inputs).Inv ∧
      Asked adapters ((boot storage path adapters now).run json inputs) := by
  have hboth : ∀ s i, (s.Inv ∧ Asked adapters s) → s.OwnAccounts i →
      (s.step json i).Inv ∧ Asked adapters (s.step json i) :=
    fun s i h hi => ⟨inv_step h.1 i hi, asked_step h.2 i⟩
  exact hown.invariant ⟨inv_boot storage path hadapters now, fun a ha => .inl ha⟩ hboth

/-- However discovery goes, and whatever else the daemon does meanwhile, it starts the accounts of
every adapter once, and asks while there are none. -/
theorem discovery_once (storage : Storage F) (path : String) (now : DateTime)
    {adapters : List (Adapter F)} (hadapters : (adapters.map (·.provider)).Nodup)
    {inputs : List (DiscoveryInput F)}
    (hown : StepsMeet (step json) OwnAccounts (boot storage path adapters now) inputs) :
    ∀ a ∈ adapters, ((boot storage path adapters now).run json inputs).Discovers inputs a := by
  intro a ha
  obtain ⟨hinv, hasked⟩ := inv_run storage path now hadapters hown
  exact hinv.discovers (stoppedByShutdown_run storage path now adapters inputs) (hasked a ha)

def claudeAdapter : Adapter ℚ where
  provider := "claude"
  presenter := fun _ => defaultHint

def codexAdapter : Adapter ℚ where
  provider := "codex"
  presenter := fun _ => defaultHint

def codexA : Account where
  id := ⟨"codex:a"⟩
  provider := "codex"
  label := "a"

/-- Two logins that are missing at startup. One provider is disabled while it is waited for, and
has its accounts once it is enabled again. -/
def lateLogins : List (DiscoveryInput ℚ) := [
  .startup (.error "not logged in") { now := 0 }, .startup (.ok []) { now := 0 }, .started 0,
  .started 1, .elapsed 1, .poll (.applyConfig (TriggerSystem.claudeConfig false) 1),
  .answered 1 (.ok [codexA]) { now := 2 }, .configChanged 0,
  .poll (.applyConfig (TriggerSystem.claudeConfig true) 3), .configChanged 0,
  .answered 0 (.ok [PollSystem.claudeA, PollSystem.claudeB]) { now := 4 },
  .poll (.wake 0 .started)]

theorem discovery_once_lateLogins :
    ((boot .empty "config.toml" [claudeAdapter, codexAdapter] 0).run (.table [] [])
        lateLogins).Discovers lateLogins claudeAdapter ∧
      ((boot .empty "config.toml" [claudeAdapter, codexAdapter] 0).run (.table [] [])
        lateLogins).Discovers lateLogins codexAdapter := by
  have hall := @discovery_once ℚ _ (.table [] []) .empty "config.toml" 0
    [claudeAdapter, codexAdapter] (by decide) lateLogins (by decide)
  exact ⟨hall _ (by simp), hall _ (by simp)⟩

/-! ## Discovery and the config -/

/-- A task sleeps while its provider is enabled, as long as the config says, and parks while it is
not, by the config it last looked at. -/
structure Watches (d : Daemon F) (t : Rediscovery F) : Prop where
  seen : t.seen ≤ d.configTx.version
  sleeping : ∀ after, t.phase = .sleeping after →
    d.state.config.providerEnabled t.adapter.provider = true ∧
        after = rediscoveryInterval d.state.config t.adapter.provider ∨
      t.seen < d.configTx.version
  parked : t.phase = .parked →
    t.immediately = true ∧
      (d.state.config.providerEnabled t.adapter.provider = false ∨ t.seen < d.configTx.version)

omit [F64 F] in
private theorem watches_iterate {d : Daemon F} {t : Rediscovery F}
    (h : t.seen ≤ d.configTx.version) : Watches d (t.iterate d.state.config) := by
  unfold Rediscovery.iterate
  split
  · rename_i henabled
    split
    · exact ⟨h, by simp, by simp⟩
    · refine ⟨h, ?_, by simp⟩
      rintro after hafter
      cases hafter
      exact .inl ⟨henabled, rfl⟩
  · rename_i hdisabled
    exact ⟨h, by simp, fun _ => ⟨rfl, .inl (Bool.not_eq_true _ ▸ hdisabled)⟩⟩

omit [F64 F] in
private theorem Watches.mono {d d' : Daemon F} {t : Rediscovery F} (h : Watches d t)
    (hconfig : d.configTx.version < d'.configTx.version ∨
      d'.state.config = d.state.config ∧ d'.configTx = d.configTx) : Watches d' t := by
  rcases hconfig with hlt | ⟨hconfig, htx⟩
  · have hseen : t.seen < d'.configTx.version := Nat.lt_of_le_of_lt h.seen hlt
    exact ⟨hseen.le, fun _ _ => .inr hseen, fun hparked => ⟨(h.parked hparked).1, .inr hseen⟩⟩
  · refine ⟨?_, ?_, ?_⟩
    · rw [htx]
      exact h.seen
    · rw [hconfig, htx]
      exact h.sleeping
    · rw [hconfig, htx]
      exact h.parked

def Watching (s : Discovery F) : Prop := ∀ t ∈ s.tasks, Watches s.polls.daemon t

private theorem startAccounts_config (polls : PollSystem F) (adapter : Adapter F) (env : StartEnv)
    (accounts : List Account) :
    (startAccounts json polls adapter env accounts).daemon.state.config =
        polls.daemon.state.config ∧
      (startAccounts json polls adapter env accounts).daemon.configTx = polls.daemon.configTx := by
  induction accounts generalizing polls with
  | nil => exact ⟨rfl, rfl⟩
  | cons a accounts ih =>
    rw [startAccounts, List.foldl_cons]
    exact ih _

omit [F64 F] in
theorem Watching.setTask (h : s.Watching) (task : Nat) {t : Rediscovery F}
    (ht : Watches s.polls.daemon t) : (s.setTask task t).Watching := by
  intro u hu
  rcases List.mem_or_eq_of_mem_set hu with hu | rfl
  · exact h u hu
  · exact ht

omit [F64 F] in
private theorem Moves.watches {d : Daemon F} {t t' : Rediscovery F} (h : Moves d t t')
    (ht : Watches d t) : Watches d t' := by
  cases h with
  | started => exact watches_iterate ht.seen
  | changed => exact watches_iterate (Nat.le_refl _)
  | elapsed => exact ⟨ht.seen, by simp, by simp⟩
  | stopped => exact ⟨ht.seen, by simp, by simp⟩

private theorem watching_step (h : s.Watching) (i : DiscoveryInput F) :
    (s.step json i).Watching := by
  have hspawn : ∀ {s' : Discovery F} (adapter : Adapter F), s'.Watching →
      (s'.spawnRediscovery adapter).Watching := by
    intro s' adapter h' t ht
    rcases List.mem_append.mp ht with ht | ht
    · exact h' t ht
    · obtain rfl := List.mem_singleton.mp ht
      exact ⟨Nat.le_refl _, by simp, by simp⟩
  have hstarted : ∀ adapter env accounts (tasks : List (Rediscovery F)),
      (∀ t ∈ tasks, Watches s.polls.daemon t) →
      ∀ t ∈ tasks, Watches (startAccounts json s.polls adapter env accounts).daemon t :=
    fun adapter env accounts tasks htasks t ht =>
      (htasks t ht).mono (.inr (startAccounts_config s.polls adapter env accounts))
  have hgoes := goes_step json s i
  generalize s.step json i = s' at hgoes ⊢
  cases hgoes with
  | idle => exact h
  | polled input haccounts =>
    exact fun t ht => (h t ht).mono (PollSystem.step_frame json s.polls input).2
  | @moved _ task t t' ht hmoves hstop =>
    exact h.setTask task (hmoves.watches (h t (List.mem_of_getElem? ht)))
  | @startup adapter rest hstarting answer env =>
    rcases answer with message | _ | ⟨a, accounts⟩
    · exact hspawn adapter h
    · exact hspawn adapter h
    · exact hstarted adapter env (a :: accounts) s.tasks h
  | @answered task t ht hphase answer env =>
    have hseen := (h t (List.mem_of_getElem? ht)).seen
    rcases answer with message | _ | ⟨a, accounts⟩
    · exact h.setTask task (watches_iterate hseen)
    · exact h.setTask task (watches_iterate hseen)
    · apply hstarted t.adapter env (a :: accounts)
      exact h.setTask task ⟨hseen, by simp, by simp⟩

private theorem watching_run (storage : Storage F) (path : String) (now : DateTime)
    (adapters : List (Adapter F)) (inputs : List (DiscoveryInput F)) :
    ((boot storage path adapters now).run json inputs).Watching := by
  refine foldl_invariant inputs ?_ fun s i h => watching_step h i
  intro t ht
  cases ht

omit [F64 F] in
private theorem iterate_discovering {config : Config} {t : Rediscovery F}
    (h : (t.iterate config).phase = .discovering) :
    config.providerEnabled t.adapter.provider = true := by
  unfold Rediscovery.iterate at h
  split at h
  · assumption
  · cases h

/-- Where a task that asks comes from: one that moved there itself. -/
theorem discovering_of_step {i : DiscoveryInput F} {task : Nat} {t t' : Rediscovery F}
    (ht : s.tasks[task]? = some t) (ht' : (s.step json i).tasks[task]? = some t')
    (hbefore : t.phase ≠ .discovering) (hafter : t'.phase = .discovering) :
    Moves s.polls.daemon t t' := by
  have hsame : ∀ {u : Rediscovery F}, some t = some u → u.phase = .discovering → False := by
    rintro u heq hu
    cases heq
    exact hbefore hu
  have hgoes := goes_step json s i
  generalize s.step json i = s' at hgoes ht'
  cases hgoes with
  | idle => exact (hsame (ht.symm.trans ht') hafter).elim
  | polled input haccounts => exact (hsame (ht.symm.trans ht') hafter).elim
  | @moved _ task' u u' hu hmoves hstop =>
    by_cases htask : task' = task
    · subst htask
      cases ht.symm.trans hu
      have hlt : task' < s.tasks.length := (List.getElem?_eq_some_iff.mp ht).1
      have hset : (s.setTask task' u').tasks[task']? = some u' := List.getElem?_set_self hlt
      cases hset.symm.trans ht'
      exact hmoves
    · have hset : (s.setTask task' u').tasks[task]? = s.tasks[task]? := List.getElem?_set_ne htask
      exact (hsame ((ht.symm.trans hset.symm).trans ht') hafter).elim
  | @startup adapter rest hstarting answer env =>
    have hprefix : s.tasks <+: (s.startup json adapter rest answer env).tasks := by
      rcases answer with message | _ | ⟨a, accounts⟩
      · exact List.prefix_append _ _
      · exact List.prefix_append _ _
      · exact List.prefix_refl _
    have hlt : task < s.tasks.length := (List.getElem?_eq_some_iff.mp ht).1
    obtain ⟨more, hmore⟩ := hprefix
    rw [← hmore, List.getElem?_append_left hlt] at ht'
    exact (hsame (ht.symm.trans ht') hafter).elim
  | @answered task' u hu hphase answer env =>
    have hne : task' ≠ task := by
      rintro rfl
      cases ht.symm.trans hu
      exact hbefore hphase
    have hset : (s.answered json task' u answer env).tasks[task]? = s.tasks[task]? := by
      rcases answer with message | _ | ⟨a, accounts⟩ <;> exact List.getElem?_set_ne hne
    exact (hsame ((ht.symm.trans hset.symm).trans ht') hafter).elim

private theorem step_configChanged {task : Nat} {t : Rediscovery F} (ht : s.tasks[task]? = some t)
    (hphase : t.phase.listens = true) (hseen : t.seen < s.polls.daemon.configTx.version) :
    (s.step json (.configChanged task)).tasks[task]? =
      some ({ t with seen := s.polls.daemon.configTx.version }.iterate s.config) := by
  have hlt : task < s.tasks.length := (List.getElem?_eq_some_iff.mp ht).1
  simp only [step, ht]
  rw [hphase, if_pos (show (true && s.polls.daemon.configTx.hasChanged t.seen) = true from
    decide_eq_true hseen)]
  exact List.getElem?_set_self hlt

/-- How the config gates a task. It only turns to its adapter while the provider is enabled, after a
sleep as long as the config says, or with a change of the config still to look at; the change that
enables the provider wakes it at once, and the one that disables it parks it. -/
structure Gated (json : SerdeJson F) (s : Discovery F) (task : Nat) (t : Rediscovery F) :
    Prop where
  asks : t.phase ≠ .discovering → ∀ i t', (s.step json i).tasks[task]? = some t' →
    t'.phase = .discovering →
    s.config.providerEnabled t.adapter.provider = true ∧
        (∀ after, t.phase = .sleeping after →
          after = rediscoveryInterval s.config t.adapter.provider) ∨
      t.seen < s.polls.daemon.configTx.version
  wakes : t.phase = .parked → s.config.providerEnabled t.adapter.provider = true →
    ∃ t', (s.step json (.configChanged task)).tasks[task]? = some t' ∧ t'.phase = .discovering
  parks : ∀ after, t.phase = .sleeping after →
    s.config.providerEnabled t.adapter.provider = false →
    ∃ t', (s.step json (.configChanged task)).tasks[task]? = some t' ∧ t'.phase = .parked

private theorem Watching.gated (h : s.Watching) {task : Nat} {t : Rediscovery F}
    (ht : s.tasks[task]? = some t) : Gated json s task t := by
  have hwatches : Watches s.polls.daemon t := h t (List.mem_of_getElem? ht)
  refine ⟨?_, ?_, ?_⟩
  · intro hbefore i t' ht' hafter
    cases discovering_of_step ht ht' hbefore hafter with
    | started hphase =>
      exact .inl ⟨iterate_discovering hafter, fun after h => by rw [hphase] at h; cases h⟩
    | changed hphase hseen => exact .inr hseen
    | @elapsed after hphase =>
      rcases hwatches.sleeping after hphase with ⟨henabled, heq⟩ | hseen
      · refine .inl ⟨henabled, ?_⟩
        intro after' hafter'
        rw [hphase] at hafter'
        cases hafter'
        exact heq
      · exact .inr hseen
    | stopped => cases hafter
  · intro hphase henabled
    obtain ⟨himmediately, hparked⟩ := hwatches.parked hphase
    have hseen : t.seen < s.polls.daemon.configTx.version := by
      rcases hparked with hdisabled | hseen
      · rw [config, hdisabled] at henabled
        cases henabled
      · exact hseen
    refine ⟨_, step_configChanged ht (by rw [hphase]; rfl) hseen, ?_⟩
    rw [Rediscovery.iterate, if_pos henabled, if_pos himmediately]
  · intro after hphase hdisabled
    have hseen : t.seen < s.polls.daemon.configTx.version := by
      rcases hwatches.sleeping after hphase with ⟨henabled, -⟩ | hseen
      · rw [config, henabled] at hdisabled
        cases hdisabled
      · exact hseen
    refine ⟨_, step_configChanged ht (by rw [hphase]; rfl) hseen, ?_⟩
    rw [Rediscovery.iterate, if_neg (by rw [hdisabled]; exact Bool.false_ne_true)]

/-- The accounts of an answer differ in their ids, and an id tells whose it is. -/
def Identified (owner : AccountId → ProviderId) : DiscoveryInput F → Prop
  | .startup answer _ => ((startedBy (some answer)).map (·.id)).Nodup ∧
      ∀ a ∈ startedBy (some answer), owner a.id = a.provider
  | .answered _ answer _ => ((startedBy (some answer)).map (·.id)).Nodup ∧
      ∀ a ∈ startedBy (some answer), owner a.id = a.provider
  | _ => True

instance (owner : AccountId → ProviderId) (i : DiscoveryInput F) :
    Decidable (Identified owner i) :=
  match i with
  | .startup answer _ => inferInstanceAs (Decidable
      (((startedBy (some answer)).map (·.id)).Nodup ∧
        ∀ a ∈ startedBy (some answer), owner a.id = a.provider))
  | .answered _ answer _ => inferInstanceAs (Decidable
      (((startedBy (some answer)).map (·.id)).Nodup ∧
        ∀ a ∈ startedBy (some answer), owner a.id = a.provider))
  | .started _ => inferInstanceAs (Decidable True)
  | .elapsed _ => inferInstanceAs (Decidable True)
  | .configChanged _ => inferInstanceAs (Decidable True)
  | .shutdown _ => inferInstanceAs (Decidable True)
  | .poll _ => inferInstanceAs (Decidable True)

private theorem distinct_startAccounts (polls : PollSystem F) (adapter : Adapter F) (env : StartEnv)
    {accounts : List Account} (hnodup : (accounts.map (·.id)).Nodup)
    (hnew : ∀ a ∈ accounts, ∀ b ∈ polls.daemon.state.accounts, b.id ≠ a.id) :
    PollSystem.DistinctAccounts json polls (accounts.map fun a =>
      .startAccount a adapter.presenter (env.upsertFault a) env.now) := by
  induction accounts generalizing polls with
  | nil => trivial
  | cons a accounts ih =>
    rw [List.map_cons, List.nodup_cons] at hnodup
    refine ⟨hnew a List.mem_cons_self, ih _ hnodup.2 ?_⟩
    intro a' ha' b hb
    rw [(PollSystem.step_frame json polls _).1] at hb
    rcases List.mem_append.mp hb with hb | hb
    · exact hnew a' (List.mem_cons_of_mem _ ha') b hb
    · obtain rfl := List.mem_singleton.mp hb
      intro hid
      exact hnodup.1 (hid ▸ List.mem_map_of_mem ha')

/-- Every account's id tells whose it is. -/
def Owners (owner : AccountId → ProviderId) (s : Discovery F) : Prop :=
  ∀ a ∈ s.accounts, owner a.id = a.provider

private theorem startAccounts_matched {owner : AccountId → ProviderId} (hkept : s.Kept q)
    (hlast : ∀ last ∈ s.lastAnswer q, last.found = false) (howner : Owners owner s)
    (adapter : Adapter F) (env : StartEnv) {accounts : List Account}
    (hown : ∀ a ∈ accounts, a.provider = q)
    (hids : (accounts.map (·.id)).Nodup ∧ ∀ a ∈ accounts, owner a.id = a.provider) :
    ∃ polled, startAccounts json s.polls adapter env accounts = s.polls.run json polled ∧
      PollSystem.DistinctAccounts json s.polls polled := by
  refine ⟨_, List.foldl_map.symm, distinct_startAccounts s.polls adapter env hids.1 ?_⟩
  intro a ha b hb hid
  have hprovider : b.provider = q := by
    rw [← howner b hb, hid, hids.2 a ha, hown a ha]
  exact List.filter_eq_nil_iff.mp (hkept.no_accounts hlast) b hb (beq_iff_eq.mpr hprovider)

private theorem owners_startAccounts {owner : AccountId → ProviderId} (h : Owners owner s)
    (adapter : Adapter F) (env : StartEnv) {accounts : List Account}
    (hids : ∀ a ∈ accounts, owner a.id = a.provider) :
    ∀ a ∈ (startAccounts json s.polls adapter env accounts).daemon.state.accounts,
      owner a.id = a.provider := by
  intro a ha
  rw [startAccounts_accounts] at ha
  rcases List.mem_append.mp ha with ha | ha
  · exact h a ha
  · exact hids a ha

private theorem step_matched {owner : AccountId → ProviderId} (h : s.Inv) (howner : Owners owner s)
    (i : DiscoveryInput F) (hown : s.OwnAccounts i) (hids : Identified owner i) :
    Owners owner (s.step json i) ∧
      ∃ polled, (s.step json i).polls = s.polls.run json polled ∧
        PollSystem.DistinctAccounts json s.polls polled := by
  have hnone : ∃ polled, s.polls = s.polls.run json polled ∧
      PollSystem.DistinctAccounts json s.polls polled := ⟨[], rfl, trivial⟩
  have hgoes := goes_step json s i
  generalize s.step json i = s' at hgoes ⊢
  cases hgoes with
  | idle => exact ⟨howner, hnone⟩
  | polled input haccounts =>
    refine ⟨fun a ha => howner a (haccounts ▸ ha), [input], rfl, ?_, trivial⟩
    cases input with
    | startAccount account presenter upsertFault now =>
      rw [(PollSystem.step_frame json s.polls _).1] at haccounts
      exact absurd haccounts (by simp [accounts])
    | applyConfig loaded now => trivial
    | rejectConfig error now => trivial
    | pollNow provider account => trivial
    | wake task wakeup => trivial
  | moved _ ht hmoves hstop => exact ⟨howner, hnone⟩
  | @startup adapter rest hstarting answer env =>
    have hprovider : ∀ a ∈ startedBy (some answer), a.provider = adapter.provider := by
      apply hown
      rw [hstarting]
      rfl
    rcases answer with message | _ | ⟨a, accounts⟩
    · exact ⟨howner, hnone⟩
    · exact ⟨howner, hnone⟩
    · refine ⟨owners_startAccounts howner adapter env hids.2, ?_⟩
      refine startAccounts_matched (h.kept adapter.provider) ?_ howner adapter env hprovider hids
      rw [h.lastAnswer_starting hstarting]
      simp
  | @answered task t ht hphase answer env =>
    rcases answer with message | _ | ⟨a, accounts⟩
    · exact ⟨howner, hnone⟩
    · exact ⟨howner, hnone⟩
    · exact ⟨owners_startAccounts howner t.adapter env hids.2,
        startAccounts_matched (h.kept t.adapter.provider) (h.lastAnswer_asking ht hphase) howner
          t.adapter env (hown t ht) hids⟩

/-- Where adapters list their own accounts, under ids of their own, every run of the daemon is a
run of its poll tasks that starts each account once. -/
theorem discovery_refines (storage : Storage F) (path : String) (now : DateTime)
    {adapters : List (Adapter F)} (hadapters : (adapters.map (·.provider)).Nodup)
    (owner : AccountId → ProviderId) {inputs : List (DiscoveryInput F)}
    (hids : ∀ i ∈ inputs, Identified owner i)
    (hown : StepsMeet (step json) OwnAccounts (boot storage path adapters now) inputs) :
    ∃ polled, ((boot storage path adapters now).run json inputs).polls =
        (PollSystem.boot storage path (adapters.map (·.provider)) now).run json polled ∧
      PollSystem.DistinctAccounts json
        (PollSystem.boot storage path (adapters.map (·.provider)) now) polled := by
  refine (hown.and hids).simulation polls (fun s => s.Inv ∧ Owners owner s) ?_ ?_ ?_
  · refine ⟨inv_boot storage path hadapters now, ?_⟩
    intro a ha
    cases ha
  · exact fun s i h hi => ⟨inv_step h.1 i hi.2, (step_matched h.1 h.2 i hi.2 hi.1).1⟩
  · exact fun s i h hi => (step_matched h.1 h.2 i hi.2 hi.1).2

def lateLoginsOwner (id : AccountId) : ProviderId :=
  if id = codexA.id then "codex" else "claude"

theorem discovery_refines_lateLogins : ∃ polled,
    ((boot .empty "config.toml" [claudeAdapter, codexAdapter] 0).run (.table [] [])
        lateLogins).polls =
      (PollSystem.boot .empty "config.toml" ["claude", "codex"] 0).run (.table [] []) polled ∧
    PollSystem.DistinctAccounts (.table [] [])
      (PollSystem.boot .empty "config.toml" ["claude", "codex"] (0 : DateTime)) polled :=
  @discovery_refines ℚ _ (.table [] []) .empty "config.toml" 0 [claudeAdapter, codexAdapter]
    (by decide) lateLoginsOwner lateLogins (by decide) (by decide)

end Runs
end Discovery
end Teiryo
