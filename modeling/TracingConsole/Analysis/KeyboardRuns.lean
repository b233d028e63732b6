import TracingConsole.Analysis.Prompts

/-!
# What the keys do

While each key is read only after the effect of the one before it can be seen, the flags the
keyboard goes by are those of the console.  Then at most one prompt is open, it gets every key
that is pressed, and a single key that is not `q` never quits.

The invariant says for each phase of the keyboard what is true of the console, whatever the
network and the ticks have done since the key was read.
-/

set_option autoImplicit false

namespace TracingConsole.Analysis.Console

open TracingConsole.Library
open TracingConsole.Model TracingConsole.Model.ConsoleModel

/-! ## The open prompts -/

/-- INTERNAL: the prompts that are open, the one the keys go to first. -/
def openPrompts (m : ConsoleModel) : List ModalKind :=
  (if m.confirmVersionSwitch.isSome then [.confirmVersionSwitch] else []) ++
    (openBuffers m).map Prod.fst

/-- INTERNAL: the open prompts are the version modal and those with a text. -/
theorem mem_openPrompts (m : ConsoleModel) (p : ModalKind) :
    p ∈ openPrompts m ↔
      (p = .confirmVersionSwitch ∧ m.confirmVersionSwitch.isSome = true) ∨
        ∃ text, (p, text) ∈ openBuffers m := by
  unfold openPrompts
  cases m.confirmVersionSwitch <;> simp

/-- INTERNAL: a slot holds its prompt, if it is open. -/
theorem slot_fst (p : ModalKind) (input : Option String) :
    (slot p input).map Prod.fst = if input.isSome then [p] else [] := by
  unfold slot
  cases input <;> rfl

/-- INTERNAL: no prompt is open twice. -/
theorem openPrompts_nodup (m : ConsoleModel) : (openPrompts m).Nodup := by
  unfold openPrompts openBuffers
  rw [List.map_append, slot_fst]
  have hview : ((viewBuffers m.view).map Prod.fst).Nodup ∧
      ∀ p ∈ (viewBuffers m.view).map Prod.fst, p ≠ .chance ∧ p ≠ .confirmVersionSwitch := by
    cases m.view with
    | table => simp [viewBuffers]
    | graph gs =>
      simp only [viewBuffers, graphBuffers, List.map_append, slot_fst]
      cases gs.aggInput <;> cases gs.windowInput <;> cases gs.lookbackInput <;> simp
    | explore es =>
      simp only [viewBuffers, slot_fst]
      cases es.searchInput <;> simp
    | traceDetail td =>
      simp only [viewBuffers, slot_fst]
      cases td.explore.searchInput <;> simp
  obtain ⟨hnodup, hother⟩ := hview
  cases m.confirmVersionSwitch <;> cases m.chanceInput <;>
    simp only [Option.isSome_none, Option.isSome_some, if_true, List.nil_append,
      List.cons_append, List.nodup_cons, Bool.false_eq_true, if_false] <;>
    grind

/-- INTERNAL: the search of a list under a trace is not open. -/
def NothingHidden (m : ConsoleModel) : Prop :=
  m.viewTag = .traceDetail → viewBuffers m.view = []

/-- INTERNAL: the keys go to the first of the open prompts. -/
theorem modalKind_eq (m : ConsoleModel) (h : NothingHidden m) :
    m.modalKind = (openPrompts m).headD .none := by
  unfold NothingHidden ConsoleModel.viewTag at h
  unfold ConsoleModel.modalKind openPrompts openBuffers slot
  cases m.confirmVersionSwitch with
  | some c => rfl
  | none =>
    cases m.chanceInput with
    | some buf => rfl
    | none =>
      cases hview : m.view with
      | table => rfl
      | graph gs =>
        simp only [viewBuffers, graphBuffers, slot]
        cases gs.aggInput <;> cases gs.windowInput <;> cases gs.lookbackInput <;> rfl
      | explore es =>
        simp only [viewBuffers, slot]
        cases es.searchInput <;> rfl
      | traceDetail td =>
        rw [hview] at h
        rw [h rfl]
        rfl

/-- INTERNAL: the kind `none` is no prompt. -/
theorem none_not_open (m : ConsoleModel) : ModalKind.none ∉ openPrompts m := by
  intro hmem
  rcases (mem_openPrompts m .none).mp hmem with hconfirm | hbuffer
  · exact ModalKind.noConfusion hconfirm.1
  · obtain ⟨text, htext⟩ := hbuffer
    unfold openBuffers at htext
    cases hview : m.view <;> rw [hview] at htext <;>
      simp [viewBuffers, graphBuffers, mem_slot] at htext

/-- INTERNAL: with nothing hidden, no prompt is open when none has the keys. -/
theorem openPrompts_eq_nil (m : ConsoleModel) (h : NothingHidden m) :
    openPrompts m = [] ↔ m.modalKind = .none := by
  rw [modalKind_eq m h]
  have hnone := none_not_open m
  cases hopen : openPrompts m with
  | nil => simp
  | cons p rest =>
    rw [hopen] at hnone
    simp only [List.headD_cons]
    constructor
    · intro hcons
      cases hcons
    · intro hp
      exact absurd (by simp [hp]) hnone

/-- INTERNAL: the keys go to a prompt that is open alone. -/
theorem modalKind_of_single (m : ConsoleModel) (p : ModalKind) (h : NothingHidden m)
    (hsingle : (openPrompts m).length ≤ 1) (hp : p ∈ openPrompts m) : m.modalKind = p := by
  rw [modalKind_eq m h]
  cases hopen : openPrompts m with
  | nil =>
    rw [hopen] at hp
    cases hp
  | cons q rest =>
    rw [hopen] at hp hsingle
    have hrest : rest = [] := List.eq_nil_of_length_eq_zero (by simpa using hsingle)
    rw [hrest] at hp
    exact (List.mem_singleton.mp hp).symm

/-! ## What an update does to them -/

/-- INTERNAL: **a prompt that is open after an update was open before it, or was just opened.** -/
theorem prompts_apply (now : ℕ) (m m' : ConsoleModel) (u : Update) (e : Effect)
    (h : m.apply now u = some (m', e)) (p : ModalKind) (hp : p ∈ openPrompts m') :
    p ∈ openPrompts m ∨ opens u = some p := by
  rcases (mem_openPrompts m' p).mp hp with hconfirm | hbuffer
  · obtain ⟨hkind, hsome⟩ := hconfirm
    subst hkind
    have hpanel : m'.confirmVersionSwitch = ((panel m).after now u).confirmVersionSwitch := by
      rw [← (apply_panel now m m' u e h).1]
      rfl
    rw [hpanel] at hsome
    have hold (hbefore : m.confirmVersionSwitch.isSome = true) :
        ModalKind.confirmVersionSwitch ∈ openPrompts m ∨
          opens u = some .confirmVersionSwitch :=
      Or.inl ((mem_openPrompts m _).mpr (Or.inl ⟨rfl, hbefore⟩))
    cases u with
    | beginConfirmVersionSwitch => exact Or.inr rfl
    | confirmVersionSwitchYes =>
      simp only [Panel.after, Panel.confirmYes, Option.isSome_map] at hsome
      exact hold hsome
    | confirmVersionSwitchNo =>
      simp only [Panel.after, Panel.confirmNo, Option.isSome_filter] at hsome
      exact hold (Option.isSome_of_any hsome)
    | installerSucceeded | installerFailed =>
      simp only [Panel.after, Option.isSome_map] at hsome
      exact hold hsome
    | _ => exact hold hsome
  · obtain ⟨text, htext⟩ := hbuffer
    rcases apply_buffers now m m' u e h p text htext with hopened | hedited
    · exact Or.inr hopened.1
    · obtain ⟨buf, hbuf, -⟩ := hedited
      exact Or.inl ((mem_openPrompts m p).mpr (Or.inr ⟨buf, hbuf⟩))

/-- INTERNAL: a trace is shown with the list it was opened from. -/
theorem trace_buffers (now : ℕ) (m m' : ConsoleModel) (u : Update) (e : Effect)
    (h : m.apply now u = some (m', e)) (htrace : m'.viewTag = .traceDetail) :
    viewBuffers m'.view = viewBuffers m.view := by
  obtain ⟨td, htd⟩ : ∃ td, m'.view = .traceDetail td := by
    unfold ConsoleModel.viewTag at htrace
    cases hview : m'.view with
    | traceDetail td => exact ⟨td, rfl⟩
    | _ =>
      rw [hview] at htrace
      cases htrace
  cases apply_moves now m m' u e h with
  | absorbs span r _ _ _ hview _ _ =>
    rcases hview with hsame | hgraph
    · rw [hsame.1]
    · obtain ⟨gs, gs', -, hgs', -⟩ := hgraph
      rw [htd] at hgs'
      cases hgs'
  | splits keys _ _ hview _ _ => rw [hview]
  | shows _ hmove _ =>
    cases hmove with
    | same hview _ => rw [hview]
    | traces td₁ td' hview hview' hexplore _ =>
      rw [hview, hview']
      simp only [viewBuffers, hexplore]
    | descends td₁ hview hview' _ => rw [hview, hview']; rfl
    | charts gs gs' _ hview' _ _ => rw [htd] at hview'; cases hview'
    | lists es es' _ hview' _ _ _ => rw [htd] at hview'; cases hview'
    | ascends td₁ _ hview' _ => rw [htd] at hview'; cases hview'
    | opens gs _ hview' _ _ => rw [htd] at hview'; cases hview'
    | closes _ hview' _ => rw [htd] at hview'; cases hview'
    | starts stack _ hview' _ => rw [htd] at hview'; cases hview'
    | ends es _ hview' _ =>
      rcases hview' with htable | hgraph
      · rw [htd] at htable
        cases htable
      · obtain ⟨gs, hgs, -⟩ := hgraph
        rw [htd] at hgs
        cases hgs
    | abandons es _ _ hview' _ => rw [htd] at hview'; cases hview'

/-- INTERNAL: a text prompt knows four keys. -/
theorem textPrompt_eq_some (char : Char → Update) (backspace commit cancel u : Update) (k : KeyCode)
    (h : Keyboard.textPrompt char backspace commit cancel k = some u) :
    (∃ c, u = char c) ∨ u = backspace ∨ u = commit ∨ u = cancel := by
  cases k with
  | char c => exact Or.inl ⟨c, (Option.some.inj h).symm⟩
  | backspace => exact Or.inr (Or.inl (Option.some.inj h).symm)
  | enter => exact Or.inr (Or.inr (Or.inl (Option.some.inj h).symm))
  | esc => exact Or.inr (Or.inr (Or.inr (Option.some.inj h).symm))
  | _ => exact absurd h.symm (Option.some_ne_none u)

/-- INTERNAL: the dialog of the version switch has two answers. -/
theorem confirmUpdate_eq_some (k : KeyCode) (u : Update)
    (h : Keyboard.modalUpdate .confirmVersionSwitch k = some u) :
    u = .confirmVersionSwitchNo ∨
      u = .confirmVersionSwitchYes ∧ (k = .char 'y' ∨ k = .char 'Y') := by
  cases k with
  | char c =>
    have hanswer : (if c = 'y' ∨ c = 'Y' then some Update.confirmVersionSwitchYes
        else if c = 'n' ∨ c = 'N' then some Update.confirmVersionSwitchNo else none) = some u := h
    by_cases hyes : c = 'y' ∨ c = 'Y'
    · rw [if_pos hyes] at hanswer
      refine Or.inr ⟨(Option.some.inj hanswer).symm, ?_⟩
      exact hyes.imp (congrArg KeyCode.char) (congrArg KeyCode.char)
    · rw [if_neg hyes] at hanswer
      by_cases hno : c = 'n' ∨ c = 'N'
      · rw [if_pos hno] at hanswer
        exact Or.inl (Option.some.inj hanswer).symm
      · rw [if_neg hno] at hanswer
        exact absurd hanswer.symm (Option.some_ne_none u)
  | esc => exact Or.inl (Option.some.inj h).symm
  | _ => exact absurd h.symm (Option.some_ne_none u)

/-- INTERNAL: the updates of a prompt open none. -/
theorem modalUpdate_opens (p : ModalKind) (k : KeyCode) (u : Update)
    (h : Keyboard.modalUpdate p k = some u) : opens u = none := by
  have htext {char : Char → Update} {backspace commit cancel : Update}
      (hprompt : Keyboard.textPrompt char backspace commit cancel k = some u)
      (hchar : ∀ c, opens (char c) = none) (hbackspace : opens backspace = none)
      (hcommit : opens commit = none) (hcancel : opens cancel = none) : opens u = none := by
    rcases textPrompt_eq_some char backspace commit cancel u k hprompt with hu | hu | hu | hu
    · obtain ⟨c, hc⟩ := hu
      rw [hc, hchar]
    · rw [hu, hbackspace]
    · rw [hu, hcommit]
    · rw [hu, hcancel]
  cases p with
  | none => exact absurd h.symm (Option.some_ne_none u)
  | confirmVersionSwitch =>
    rcases confirmUpdate_eq_some k u h with hno | hyes
    · rw [hno]
      rfl
    · rw [hyes.1]
      rfl
  | _ => exact htext h (fun _ => rfl) rfl rfl rfl

/-- INTERNAL: an edit of the list is no change of view. -/
theorem viewTag_mapExplore (m : ConsoleModel) (f : ExploreState → ExploreState) :
    (m.mapExplore f).viewTag = m.viewTag := by
  unfold mapExplore ConsoleModel.viewTag
  cases hview : m.view <;> simp only [hview]

/-- INTERNAL: an update of the search leaves the list where it is. -/
theorem search_stays (now : ℕ) (m m' : ConsoleModel) (k : KeyCode) (u : Update) (e : Effect)
    (hu : Keyboard.modalUpdate .exploreSearch k = some u) (h : m.apply now u = some (m', e)) :
    m'.viewTag = m.viewTag := by
  have hmap {f : ExploreState → ExploreState} (hf : (m.mapExplore f).quiet = some (m', e)) :
      m'.viewTag = m.viewTag := by
    rw [(quiet_eq hf).1]
    exact viewTag_mapExplore m f
  rcases textPrompt_eq_some _ _ _ _ u k hu with hchar | hbackspace | hcommit | hcancel
  · obtain ⟨c, hc⟩ := hchar
    subst hc
    exact hmap h
  · subst hbackspace
    exact hmap h
  · subst hcommit
    exact hmap h
  · subst hcancel
    exact hmap h

/-- INTERNAL: what the other senders leave as it is. -/
structure Undisturbed (m m' : ConsoleModel) : Prop where
  prompts : openPrompts m' = openPrompts m
  modalKind : m'.modalKind = m.modalKind
  viewTag : m'.viewTag = m.viewTag
  deadline : m'.quitConfirmDeadline.isSome = true → m.quitConfirmDeadline.isSome = true
  hidden : NothingHidden m → NothingHidden m'

/-- INTERNAL: the same buffers in the same kind of view, the same switch. -/
theorem Undisturbed.of_parts (m m' : ConsoleModel)
    (hconfirm : m'.confirmVersionSwitch.isSome = m.confirmVersionSwitch.isSome)
    (hchance : m'.chanceInput = m.chanceInput)
    (hview : m'.view = m.view ∨
      ∃ gs gs', m.view = .graph gs ∧ m'.view = .graph gs' ∧ SameInputs gs gs')
    (hdeadline : m'.quitConfirmDeadline.isSome = true → m.quitConfirmDeadline.isSome = true) :
    Undisturbed m m' := by
  rcases hview with hsame | hgraph
  · refine ⟨?_, ?_, ?_, hdeadline, ?_⟩
    · unfold openPrompts openBuffers
      rw [hconfirm, hchance, hsame]
    · unfold ConsoleModel.modalKind
      rw [hconfirm, hchance, hsame]
    · unfold ConsoleModel.viewTag
      rw [hsame]
    · unfold NothingHidden ConsoleModel.viewTag
      rw [hsame]
      exact id
  · obtain ⟨gs, gs', hgs, hgs', hinputs⟩ := hgraph
    have hbuffers : viewBuffers m'.view = viewBuffers m.view := by
      rw [hgs, hgs']
      exact hinputs.buffers
    have htag : m'.viewTag = m.viewTag := by
      unfold ConsoleModel.viewTag
      rw [hgs, hgs']
    refine ⟨?_, ?_, htag, hdeadline, ?_⟩
    · unfold openPrompts openBuffers
      rw [hconfirm, hchance, hbuffers]
    · unfold ConsoleModel.modalKind
      rw [hconfirm, hchance, hgs, hgs']
      simp only [hinputs.aggInput, hinputs.windowInput, hinputs.lookbackInput]
    · unfold NothingHidden
      rw [htag, hbuffers]
      exact id

/-- INTERNAL: **the network and the installers disturb no prompt.** -/
theorem undisturbed_external (now : ℕ) (m m' : ConsoleModel) (u : Update) (e : Effect)
    (hu : u.isExternal = true) (h : m.apply now u = some (m', e)) : Undisturbed m m' := by
  cases u with
  | spanReceived span =>
    obtain ⟨m₁, hm₁, hquiet⟩ := Option.bind_eq_some_iff.mp h
    rw [(quiet_eq hquiet).1]
    have hpanel := panel_spanReceived now m m₁ span hm₁
    refine Undisturbed.of_parts m m₁ ?_ (congrArg Panel.chanceInput hpanel) ?_ ?_
    · exact congrArg (fun p => p.confirmVersionSwitch.isSome) hpanel
    · obtain ⟨r, -, hview⟩ := Option.bind_eq_some_iff.mp hm₁
      dsimp only at hview
      split at hview
      · next gs hgraph =>
        obtain ⟨gs', hgs', hm⟩ := Option.map_eq_some_iff.mp hview
        subst hm
        exact Or.inr ⟨gs, gs', hgraph, rfl, recordAll_inputs r.1 r.2 gs gs' hgs'⟩
      · cases hview
        exact Or.inl rfl
    · have hdeadline := congrArg Panel.quitConfirmDeadline hpanel
      intro hsome
      rw [← show m₁.quitConfirmDeadline = m.quitConfirmDeadline from hdeadline]
      exact hsome
  | connected | disconnected | status | serverInfoReceived | cacheLevelReceived
  | cacheChanceReceived =>
    cases h
    exact Undisturbed.of_parts m _ rfl rfl (Or.inl rfl) id
  | installerSucceeded | installerFailed =>
    cases h
    refine Undisturbed.of_parts m _ ?_ rfl (Or.inl rfl) id
    show (m.confirmVersionSwitch.map _).isSome = _
    exact Option.isSome_map
  | _ => cases hu

/-- INTERNAL: the deadline that runs out disturbs no prompt. -/
theorem undisturbed_expire (m : ConsoleModel) (now : ℕ) :
    Undisturbed m (m.expireQuitConfirmIfDue now) := by
  unfold ConsoleModel.expireQuitConfirmIfDue
  split
  · split
    · exact Undisturbed.of_parts m _ rfl rfl (Or.inl rfl) (fun h => nomatch h)
    · exact Undisturbed.of_parts m m rfl rfl (Or.inl rfl) id
  · exact Undisturbed.of_parts m m rfl rfl (Or.inl rfl) id

/-! ## What a key means -/

/-- INTERNAL: **what a key stands for**, told from the console alone. -/
def meaning (m : ConsoleModel) (k : KeyCode) : Option Update :=
  if m.modalKind ≠ .none then Keyboard.modalUpdate m.modalKind k
  else
    match Keyboard.levelKey k with
    | some level => some (.requestCacheLevel level)
    | none =>
      if m.quitConfirmDeadline.isSome ∧ k = .esc then some .quitConfirmDismiss
      else if k = .char 'v' then some .beginConfirmVersionSwitch
      else Keyboard.viewUpdate m.viewTag k

/-- INTERNAL: the update of a key that is on its way: what the key means now, or the dismissal of
a question that has run out meanwhile. -/
def MeantFor (m : ConsoleModel) (k : KeyCode) (u : Update) : Prop :=
  meaning m k = some u ∨
    u = .quitConfirmDismiss ∧ k = .esc ∧ m.modalKind = .none ∧ m.quitConfirmDeadline = none

/-- INTERNAL: under a prompt a key means what it says there. -/
theorem meaning_modal (m : ConsoleModel) (k : KeyCode) (h : m.modalKind ≠ .none) :
    meaning m k = Keyboard.modalUpdate m.modalKind k := by
  unfold meaning
  rw [if_pos h]

/-- INTERNAL: without a prompt the commands come first. -/
theorem meaning_command (m : ConsoleModel) (k : KeyCode) (hmodal : m.modalKind = .none)
    (hlevel : Keyboard.levelKey k = none) :
    meaning m k =
      if m.quitConfirmDeadline.isSome ∧ k = .esc then some .quitConfirmDismiss
      else if k = .char 'v' then some .beginConfirmVersionSwitch
      else Keyboard.viewUpdate m.viewTag k := by
  unfold meaning
  rw [if_neg (not_not.mpr hmodal), hlevel]

/-- INTERNAL: then the view. -/
theorem meaning_view (m : ConsoleModel) (k : KeyCode) (hmodal : m.modalKind = .none)
    (hlevel : Keyboard.levelKey k = none) (hv : k ≠ .char 'v')
    (hesc : k = .esc → m.quitConfirmDeadline = none) :
    meaning m k = Keyboard.viewUpdate m.viewTag k := by
  rw [meaning_command m k hmodal hlevel, if_neg, if_neg hv]
  intro hdismiss
  rw [hesc hdismiss.2] at hdismiss
  exact Bool.false_ne_true hdismiss.1

/-- INTERNAL: a command of a view quits by two keys only. -/
theorem viewUpdate_quit (view : ViewTag) (k : KeyCode)
    (h : Keyboard.viewUpdate view k = some .quit) : k = .char 'q' ∨ k = .esc := by
  unfold Keyboard.viewUpdate at h
  cases view with
  | table =>
    simp only [Keyboard.tableUpdate] at h
    split at h <;> simp at h ⊢
  | graph =>
    simp only [Keyboard.graphUpdate] at h
    split at h <;> simp at h ⊢
  | explore =>
    simp only [Keyboard.exploreUpdate] at h
    split at h <;> simp at h ⊢
  | traceDetail =>
    simp only [Keyboard.traceDetailUpdate] at h
    split at h <;> simp at h ⊢

/-- INTERNAL: neither a prompt nor the dialog quits. -/
theorem modalUpdate_ne_quit (p : ModalKind) (k : KeyCode) :
    Keyboard.modalUpdate p k ≠ some .quit := by
  intro h
  have htext {char : Char → Update} {backspace commit cancel : Update}
      (hprompt : Keyboard.textPrompt char backspace commit cancel k = some .quit)
      (hchar : ∀ c, Update.quit ≠ char c) (hbackspace : .quit ≠ backspace)
      (hcommit : .quit ≠ commit) (hcancel : .quit ≠ cancel) : False := by
    rcases textPrompt_eq_some char backspace commit cancel .quit k hprompt with hu | hu | hu | hu
    · obtain ⟨c, hc⟩ := hu
      exact hchar c hc
    · exact hbackspace hu
    · exact hcommit hu
    · exact hcancel hu
  cases p with
  | none => exact absurd h.symm (Option.some_ne_none _)
  | confirmVersionSwitch =>
    rcases confirmUpdate_eq_some k .quit h with hno | hyes
    · exact Update.noConfusion hno
    · exact Update.noConfusion hyes.1
  | _ => exact htext h (fun _ => nofun) nofun nofun nofun

/-- INTERNAL: while the question is up, only `q` means to quit. -/
theorem meaning_quit (m : ConsoleModel) (k : KeyCode) (h : meaning m k = some .quit)
    (hup : m.quitConfirmDeadline.isSome = true) : k = .char 'q' := by
  by_cases hmodal : m.modalKind = .none
  · cases hlevel : Keyboard.levelKey k with
    | some level =>
      unfold meaning at h
      rw [if_neg (not_not.mpr hmodal), hlevel] at h
      exact Update.noConfusion (Option.some.inj h)
    | none =>
      rw [meaning_command m k hmodal hlevel] at h
      split at h
      · exact Update.noConfusion (Option.some.inj h)
      · next hdismiss =>
        split at h
        · exact Update.noConfusion (Option.some.inj h)
        · rcases viewUpdate_quit m.viewTag k h with hq | hesc
          · exact hq
          · exact absurd ⟨hup, hesc⟩ hdismiss
  · rw [meaning_modal m k hmodal] at h
    exact absurd h (modalUpdate_ne_quit m.modalKind k)

/-- INTERNAL: the switch is confirmed by two keys only. -/
theorem meaning_yes (m : ConsoleModel) (k : KeyCode)
    (h : meaning m k = some .confirmVersionSwitchYes)
    (hopen : m.confirmVersionSwitch.isSome = true) : k = .char 'y' ∨ k = .char 'Y' := by
  have hmodal : m.modalKind = .confirmVersionSwitch := by
    unfold ConsoleModel.modalKind
    rw [if_pos hopen]
  rw [meaning_modal m k (by rw [hmodal]; decide), hmodal] at h
  rcases confirmUpdate_eq_some k _ h with hno | hyes
  · exact Update.noConfusion hno
  · exact hyes.2

/-- INTERNAL: what the other senders do to the console does not change what a key stands for. -/
theorem Undisturbed.meantFor (m m' : ConsoleModel) (h : Undisturbed m m') (k : KeyCode)
    (u : Update) (hmeant : MeantFor m k u) : MeantFor m' k u := by
  have hnone (hm : m.quitConfirmDeadline = none) : m'.quitConfirmDeadline = none := by
    cases hm' : m'.quitConfirmDeadline with
    | none => rfl
    | some deadline =>
      have hsome := h.deadline (by rw [hm']; rfl)
      rw [hm] at hsome
      exact absurd hsome Bool.false_ne_true
  rcases hmeant with hmeaning | hdismiss
  · by_cases hmodal : m.modalKind = .none
    · cases hlevel : Keyboard.levelKey k with
      | some level =>
        refine Or.inl ?_
        rw [← hmeaning]
        unfold meaning
        rw [h.modalKind, hlevel, if_neg (not_not.mpr hmodal)]
      | none =>
        rw [meaning_command m k hmodal hlevel] at hmeaning
        have hmodal' : m'.modalKind = .none := h.modalKind.trans hmodal
        by_cases hup : m.quitConfirmDeadline.isSome = true ∧ k = .esc
        · rw [if_pos hup] at hmeaning
          cases hdeadline : m'.quitConfirmDeadline with
          | none => exact Or.inr ⟨(Option.some.inj hmeaning).symm, hup.2, hmodal', hdeadline⟩
          | some deadline =>
            refine Or.inl ?_
            rw [meaning_command m' k hmodal' hlevel, hdeadline, if_pos ⟨rfl, hup.2⟩]
            exact hmeaning
        · have hup' : ¬(m'.quitConfirmDeadline.isSome = true ∧ k = .esc) := fun hdown =>
            hup ⟨h.deadline hdown.1, hdown.2⟩
          refine Or.inl ?_
          rw [meaning_command m' k hmodal' hlevel, if_neg hup', h.viewTag]
          rw [if_neg hup] at hmeaning
          exact hmeaning
    · refine Or.inl ?_
      rw [meaning_modal m' k (by rw [h.modalKind]; exact hmodal), h.modalKind]
      rw [meaning_modal m k hmodal] at hmeaning
      exact hmeaning
  · exact Or.inr ⟨hdismiss.1, hdismiss.2.1, h.modalKind.trans hdismiss.2.2.1,
      hnone hdismiss.2.2.2⟩

/-! ## The two threads -/

/-- INTERNAL: a key is read only when the effect of the one before it can be seen. -/
def CaughtUp (s : Terminal) : TerminalStep → Prop
  | .key _ => s.toStore = [] ∧ s.channel = []
  | _ => True

/-- INTERNAL: what is known of the console where the keyboard is with a key. -/
def PhaseFits (m : ConsoleModel) : KeyboardPhase → Prop
  | .polling | .read _ => True
  | .commanding k => m.modalKind = .none ∧ Keyboard.levelKey k = none
  | .viewing k =>
    m.modalKind = .none ∧ Keyboard.levelKey k = none ∧ k ≠ .char 'v' ∧
      (k = .esc → m.quitConfirmDeadline = none)

/-- INTERNAL: the flag has been stored since the last update, or a key is being dealt with. -/
def Renewed (s : Terminal) (flag : Flag) : Prop := flag ∉ s.toStore ∨ s.keyboard ≠ .polling

/-- INTERNAL: **the keys are told by the console as it is.** -/
structure Attentive (s : Terminal) : Prop where
  hidden : NothingHidden s.console
  single : (openPrompts s.console).length ≤ 1
  modalFlag : Renewed s .modalKind → s.modalKind = s.console.modalKind
  viewFlag : Renewed s .currentView → s.currentView = s.console.viewTag
  quitFlag : Renewed s .quitConfirmActive → s.console.quitConfirmDeadline.isSome = true →
    s.quitConfirmActive = true
  phase : PhaseFits s.console s.keyboard
  waiting : s.keyboard ≠ .polling → s.channel = []
  one : s.channel.length ≤ 1
  sent : ∀ k u, (k, u) ∈ s.channel → MeantFor s.console k u
  quits : ∀ k, s.exited = some (.quit k) → k = .char 'q'
  restarts : ∀ k, s.exited = some (.restart k) → k = .char 'y' ∨ k = .char 'Y'

/-- INTERNAL: nothing is read before the first key. -/
theorem attentive_start (historyBudget : ℕ) : Attentive (Terminal.start historyBudget) where
  hidden := fun h => nomatch h
  single := Nat.zero_le 1
  modalFlag := fun _ => rfl
  viewFlag := fun _ => rfl
  quitFlag := fun _ h => nomatch h
  phase := trivial
  waiting := fun _ => rfl
  one := Nat.zero_le 1
  sent := fun _ _ h => nomatch h
  quits := fun _ h => nomatch h
  restarts := fun _ h => nomatch h

/-- INTERNAL: other senders and ticks come in between. -/
theorem Undisturbed.phaseFits (m m' : ConsoleModel) (h : Undisturbed m m')
    (phase : KeyboardPhase) (hphase : PhaseFits m phase) : PhaseFits m' phase := by
  cases phase with
  | polling | read k => trivial
  | commanding k => exact ⟨h.modalKind.trans hphase.1, hphase.2⟩
  | viewing k =>
    obtain ⟨hmodal, hlevel, hv, hesc⟩ := hphase
    refine ⟨h.modalKind.trans hmodal, hlevel, hv, fun hk => ?_⟩
    cases hdeadline : m'.quitConfirmDeadline with
    | none => rfl
    | some deadline =>
      have hsome := h.deadline (by rw [hdeadline]; rfl)
      rw [hesc hk] at hsome
      exact absurd hsome Bool.false_ne_true

section Step

variable (s s' : Terminal)

/-- INTERNAL: the console is renewed by another sender or a tick, and flags are to be stored. -/
theorem Attentive.undisturbed (h : Attentive s) (m : ConsoleModel) (flags : List Flag)
    (hstore : s.toStore = []) (hm : Undisturbed s.console m) :
    Attentive { s with console := m, toStore := flags } where
  hidden := hm.hidden h.hidden
  single := by
    show (openPrompts m).length ≤ 1
    rw [hm.prompts]
    exact h.single
  modalFlag := fun _ => by
    have hold := h.modalFlag (Or.inl (by rw [hstore]; exact List.not_mem_nil))
    exact hold.trans hm.modalKind.symm
  viewFlag := fun _ => by
    have hold := h.viewFlag (Or.inl (by rw [hstore]; exact List.not_mem_nil))
    exact hold.trans hm.viewTag.symm
  quitFlag := fun _ hup =>
    h.quitFlag (Or.inl (by rw [hstore]; exact List.not_mem_nil)) (hm.deadline hup)
  phase := hm.phaseFits s.console m s.keyboard h.phase
  waiting := h.waiting
  one := h.one
  sent := fun k u hmem => hm.meantFor s.console m k u (h.sent k u hmem)
  quits := h.quits
  restarts := h.restarts

/-- INTERNAL: a key is dealt with. -/
theorem Attentive.sendOrExit (h : Attentive s) (dropped : Bool) (k : KeyCode) (u : Option Update)
    (hbusy : s.keyboard ≠ .polling) (hu : ∀ u₁, u = some u₁ → MeantFor s.console k u₁) :
    Attentive (s.sendOrExit dropped k u) := by
  have hrenewed (flag : Flag) : Renewed s flag := Or.inr hbusy
  have hchannel : (s.sendOrExit dropped k u).channel =
      if dropped then [] else u.toList.map fun u => (k, u) := by
    unfold Terminal.sendOrExit
    rw [h.waiting hbusy, List.nil_append]
  refine ⟨h.hidden, h.single, fun _ => h.modalFlag (hrenewed _), fun _ => h.viewFlag (hrenewed _),
    fun _ => h.quitFlag (hrenewed _), trivial, fun hpolling => absurd rfl hpolling, ?_, ?_,
    h.quits, h.restarts⟩
  · rw [hchannel]
    split
    · exact Nat.zero_le 1
    · cases u <;> simp
  · intro k₁ u₁ hmem
    rw [hchannel] at hmem
    split at hmem
    · cases hmem
    · obtain ⟨u₂, hu₂, hpair⟩ := List.mem_map.mp hmem
      cases hpair
      exact hu u₁ (Option.mem_toList.mp hu₂)

/-- INTERNAL: the keyboard goes on with its key. -/
theorem Attentive.goOn (h : Attentive s) (phase : KeyboardPhase) (hbusy : s.keyboard ≠ .polling)
    (hphase : PhaseFits s.console phase) : Attentive { s with keyboard := phase } where
  hidden := h.hidden
  single := h.single
  modalFlag := fun _ => h.modalFlag (Or.inr hbusy)
  viewFlag := fun _ => h.viewFlag (Or.inr hbusy)
  quitFlag := fun _ => h.quitFlag (Or.inr hbusy)
  phase := hphase
  waiting := fun _ => h.waiting hbusy
  one := h.one
  sent := h.sent
  quits := h.quits
  restarts := h.restarts

/-- INTERNAL: a key is read, once the loop has caught up. -/
theorem Attentive.read (h : Attentive s) (k : KeyCode) (hstore : s.toStore = [])
    (hchannel : s.channel = []) : Attentive { s with keyboard := .read k } where
  hidden := h.hidden
  single := h.single
  modalFlag := fun _ => h.modalFlag (Or.inl (by rw [hstore]; exact List.not_mem_nil))
  viewFlag := fun _ => h.viewFlag (Or.inl (by rw [hstore]; exact List.not_mem_nil))
  quitFlag := fun _ => h.quitFlag (Or.inl (by rw [hstore]; exact List.not_mem_nil))
  phase := trivial
  waiting := fun _ => hchannel
  one := h.one
  sent := h.sent
  quits := h.quits
  restarts := h.restarts

/-- INTERNAL: the keyboard reads the prompt's flag. -/
theorem Attentive.loadModal (h : Attentive s) (dropped : Bool)
    (hstep : s.step (.loadModal dropped) = some s') : Attentive s' := by
  unfold Terminal.step at hstep
  split at hstep
  · cases hstep
  · dsimp only at hstep
    split at hstep
    · next k hread =>
      have hbusy : s.keyboard ≠ .polling := by
        rw [hread]
        exact KeyboardPhase.noConfusion
      have hflag := h.modalFlag (Or.inr hbusy)
      split at hstep
      · next hmodal =>
        rw [hflag] at hmodal hstep
        rw [← Option.some.inj hstep]
        refine h.sendOrExit s dropped k _ hbusy fun u hu => Or.inl ?_
        rw [meaning_modal s.console k hmodal]
        exact hu
      · next hmodal =>
        rw [hflag] at hmodal
        have hnone := not_not.mp hmodal
        split at hstep
        · next level hlevel =>
          rw [← Option.some.inj hstep]
          refine h.sendOrExit s dropped k _ hbusy fun u hu => Or.inl ?_
          unfold meaning
          rw [if_neg hmodal, hlevel]
          exact hu
        · next hlevel =>
          rw [← Option.some.inj hstep]
          exact h.goOn s _ hbusy ⟨hnone, hlevel⟩
    · cases hstep

/-- INTERNAL: it reads the flag of the question. -/
theorem Attentive.loadQuit (h : Attentive s) (dropped : Bool)
    (hstep : s.step (.loadQuit dropped) = some s') : Attentive s' := by
  unfold Terminal.step at hstep
  split at hstep
  · cases hstep
  · dsimp only at hstep
    split at hstep
    · next k hcommanding =>
      have hbusy : s.keyboard ≠ .polling := by
        rw [hcommanding]
        exact KeyboardPhase.noConfusion
      have hphase := h.phase
      rw [hcommanding] at hphase
      obtain ⟨hmodal, hlevel⟩ := hphase
      have hcommand := meaning_command s.console k hmodal hlevel
      split at hstep
      · next hdismiss =>
        rw [← Option.some.inj hstep]
        refine h.sendOrExit s dropped k _ hbusy fun u hu => ?_
        have hu₁ : Update.quitConfirmDismiss = u := Option.some.inj hu
        -- the question may have run out since the flag was stored
        cases hdeadline : s.console.quitConfirmDeadline with
        | none => exact Or.inr ⟨hu₁.symm, hdismiss.2, hmodal, hdeadline⟩
        | some deadline =>
          refine Or.inl ?_
          rw [hcommand, hdeadline, if_pos ⟨rfl, hdismiss.2⟩, hu₁]
      · next hstay =>
        have hdown : ¬(s.console.quitConfirmDeadline.isSome = true ∧ k = .esc) := fun hup =>
          hstay ⟨h.quitFlag (Or.inr hbusy) hup.1, hup.2⟩
        rw [if_neg hdown] at hcommand
        split at hstep
        · next hv =>
          rw [← Option.some.inj hstep]
          refine h.sendOrExit s dropped k _ hbusy fun u hu => Or.inl ?_
          rw [hcommand, if_pos hv]
          exact hu
        · next hv =>
          rw [← Option.some.inj hstep]
          refine h.goOn s _ hbusy ⟨hmodal, hlevel, hv, fun hesc => ?_⟩
          cases hdeadline : s.console.quitConfirmDeadline with
          | none => rfl
          | some deadline =>
            rw [hdeadline] at hdown
            exact absurd ⟨rfl, hesc⟩ hdown
    · cases hstep

/-- INTERNAL: it reads the flag of the view. -/
theorem Attentive.loadView (h : Attentive s) (dropped : Bool)
    (hstep : s.step (.loadView dropped) = some s') : Attentive s' := by
  unfold Terminal.step at hstep
  split at hstep
  · cases hstep
  · dsimp only at hstep
    split at hstep
    · next k hviewing =>
      have hbusy : s.keyboard ≠ .polling := by
        rw [hviewing]
        exact KeyboardPhase.noConfusion
      have hphase := h.phase
      rw [hviewing] at hphase
      obtain ⟨hmodal, hlevel, hv, hesc⟩ := hphase
      rw [h.viewFlag (Or.inr hbusy)] at hstep
      rw [← Option.some.inj hstep]
      refine h.sendOrExit s dropped k _ hbusy fun u hu => Or.inl ?_
      rw [meaning_view s.console k hmodal hlevel hv hesc]
      exact hu
    · cases hstep

/-- INTERNAL: an update that a key stands for leaves at most one prompt open. -/
theorem prompts_meant (now : ℕ) (m m' : ConsoleModel) (k : KeyCode) (u : Update) (e : Effect)
    (hhidden : NothingHidden m) (hsingle : (openPrompts m).length ≤ 1) (hmeant : MeantFor m k u)
    (h : m.apply now u = some (m', e)) :
    (openPrompts m').length ≤ 1 ∧ NothingHidden m' := by
  have hprompts := prompts_apply now m m' u e h
  by_cases hmodal : m.modalKind = .none
  · have hnone := (openPrompts_eq_nil m hhidden).mpr hmodal
    constructor
    · have hsub : openPrompts m' ⊆ (opens u).toList := by
        intro p hp
        rcases hprompts p hp with hold | hopened
        · rw [hnone] at hold
          cases hold
        · exact Option.mem_toList.mpr hopened
      have hlength := (openPrompts_nodup m').length_le_of_subset hsub
      have hone : (opens u).toList.length ≤ 1 := by cases opens u <;> simp
      omega
    · intro htrace
      rw [trace_buffers now m m' u e h htrace]
      have hbuffers : (openBuffers m).map Prod.fst = [] := (List.append_eq_nil_iff.mp hnone).2
      exact (List.append_eq_nil_iff.mp (List.map_eq_nil_iff.mp hbuffers)).2
  · have hmeaning : Keyboard.modalUpdate m.modalKind k = some u := by
      rcases hmeant with hmeaning | hdismiss
      · rw [← meaning_modal m k hmodal]
        exact hmeaning
      · exact absurd hdismiss.2.2.1 hmodal
    have hopens := modalUpdate_opens m.modalKind k u hmeaning
    constructor
    · have hsub : openPrompts m' ⊆ openPrompts m := by
        intro p hp
        rcases hprompts p hp with hold | hopened
        · exact hold
        · rw [hopens] at hopened
          cases hopened
      exact ((openPrompts_nodup m').length_le_of_subset hsub).trans hsingle
    · intro htrace
      rw [trace_buffers now m m' u e h htrace]
      by_cases hsearch : m.modalKind = .exploreSearch
      · rw [hsearch] at hmeaning
        exact hhidden (search_stays now m m' k u e hmeaning h ▸ htrace)
      · -- the list under the trace has no search, or that would be the prompt
        rw [← trace_buffers now m m' u e h htrace]
        rw [List.eq_nil_iff_forall_not_mem]
        rintro ⟨p, text⟩ hmem
        have hp : p = .exploreSearch := by
          unfold ConsoleModel.viewTag at htrace
          cases hview : m'.view with
          | traceDetail td =>
            rw [hview] at hmem
            exact ((mem_slot _ p _ text).mp hmem).1
          | _ =>
            rw [hview] at htrace
            cases htrace
        rw [trace_buffers now m m' u e h htrace] at hmem
        have hopen : p ∈ openPrompts m :=
          (mem_openPrompts m p).mpr (Or.inr ⟨text, List.mem_append_right _ hmem⟩)
        exact hsearch (hp ▸ modalKind_of_single m p hhidden hsingle hopen)

/-- INTERNAL: the console quits on a second request, while the question is up. -/
theorem apply_quits (now : ℕ) (m m' : ConsoleModel) (u : Update)
    (h : m.apply now u = some (m', .quit)) :
    u = .quit ∧ ∃ deadline, m.quitConfirmDeadline = some deadline ∧ now < deadline := by
  rcases (apply_panel now m m' u .quit h).2 with heffect | hasks
  · unfold Panel.effect at heffect
    split at heffect
    · refine ⟨rfl, ?_⟩
      split at heffect
      · next deadline hdeadline =>
        split at heffect
        · next hlive => exact ⟨deadline, hdeadline, hlive⟩
        · cases heffect
      · cases heffect
    · split at heffect
      · split at heffect <;> cases heffect
      · cases heffect
    · cases heffect
  · rcases hasks.2 with hnone | ⟨filter, hlevel⟩ | ⟨pct, hchance⟩
    · cases hnone
    · cases hlevel
    · cases hchance

/-- INTERNAL: the console restarts on the answer to its dialog. -/
theorem apply_restarts (now : ℕ) (m m' : ConsoleModel) (u : Update)
    (h : m.apply now u = some (m', .restart)) :
    u = .confirmVersionSwitchYes ∧ m.confirmVersionSwitch.isSome = true := by
  rcases (apply_panel now m m' u .restart h).2 with heffect | hasks
  · unfold Panel.effect at heffect
    split at heffect
    · split at heffect
      · split at heffect <;> cases heffect
      · cases heffect
    · refine ⟨rfl, ?_⟩
      split at heffect
      · next c hopen =>
        rw [show m.confirmVersionSwitch = some c from hopen]
        rfl
      · cases heffect
    · cases heffect
  · rcases hasks.2 with hnone | ⟨filter, hlevel⟩ | ⟨pct, hchance⟩
    · cases hnone
    · cases hlevel
    · cases hchance

/-- INTERNAL: **the loop applies what a key stands for.** -/
theorem Attentive.apply (h : Attentive s) (now : ℕ) (hstep : s.step (.apply now) = some s') :
    Attentive s' := by
  unfold Terminal.step at hstep
  split at hstep
  · cases hstep
  · dsimp only at hstep
    split at hstep
    · next k u channel hstore hchannel =>
      obtain ⟨⟨m', e⟩, happly, hs'⟩ := Option.map_eq_some_iff.mp hstep
      have hmeant : MeantFor s.console k u := h.sent k u (by rw [hchannel]; exact List.mem_cons_self)
      have hpolling : s.keyboard = .polling := by
        by_contra hbusy
        rw [h.waiting hbusy] at hchannel
        cases hchannel
      have hrest : channel = [] := by
        have hone := h.one
        rw [hchannel] at hone
        exact List.eq_nil_of_length_eq_zero (by simpa using hone)
      obtain ⟨hsingle, hhidden⟩ :=
        prompts_meant now s.console m' k u e h.hidden h.single hmeant happly
      have heffect := (apply_panel now s.console m' u e happly).2
      have hstale (flag : Flag) (hall : flag ∈ Terminal.allFlags) : ¬Renewed s' flag := by
        rw [← hs']
        rintro (hnot | hbusy)
        · exact hnot hall
        · exact hbusy hpolling
      rw [← hs']
      rw [← hs'] at hstale
      refine ⟨hhidden, hsingle, fun hr => absurd hr (hstale _ (by decide)),
        fun hr => absurd hr (hstale _ (by decide)), fun hr => absurd hr (hstale _ (by decide)),
        ?_, fun _ => hrest, ?_, ?_, ?_, ?_⟩
      · show PhaseFits m' s.keyboard
        rw [hpolling]
        trivial
      · show channel.length ≤ 1
        rw [hrest]
        exact Nat.zero_le 1
      · intro k₁ u₁ hmem
        rw [show channel = [] from hrest] at hmem
        cases hmem
      · intro k₁ hexit
        cases e with
        | quit =>
          cases hexit
          obtain ⟨hu, deadline, hdeadline, -⟩ := apply_quits now s.console m' u happly
          rcases hmeant with hmeaning | hdismiss
          · rw [hu] at hmeaning
            exact meaning_quit s.console k hmeaning (by rw [hdeadline]; rfl)
          · rw [hdismiss.1] at hu
            cases hu
        | _ => cases hexit
      · intro k₁ hexit
        cases e with
        | restart =>
          cases hexit
          obtain ⟨hu, hopen⟩ := apply_restarts now s.console m' u happly
          rcases hmeant with hmeaning | hdismiss
          · rw [hu] at hmeaning
            exact meaning_yes s.console k hmeaning hopen
          · rw [hdismiss.1] at hu
            cases hu
        | _ => cases hexit
    · cases hstep

/-- INTERNAL: a flag is stored. -/
theorem Attentive.store (h : Attentive s) (hstep : s.step .store = some s') : Attentive s' := by
  unfold Terminal.step at hstep
  split at hstep
  · cases hstep
  · dsimp only at hstep
    split at hstep
    · next flag rest hstore =>
      have hrenewed (other : Flag) (hother : other ≠ flag)
          (hr : Renewed { s.storeFlag flag with toStore := rest } other) : Renewed s other := by
        refine hr.imp (fun hnot hmem => ?_) fun hbusy => ?_
        · rw [hstore] at hmem
          rcases List.mem_cons.mp hmem with hsame | hrest
          · exact hother hsame
          · exact hnot hrest
        · cases flag <;> exact hbusy
      rw [← Option.some.inj hstep]
      cases flag with
      | modalKind =>
        exact ⟨h.hidden, h.single, fun _ => rfl, fun hr => h.viewFlag (hrenewed _ (by decide) hr),
          fun hr => h.quitFlag (hrenewed _ (by decide) hr), h.phase, h.waiting, h.one, h.sent,
          h.quits, h.restarts⟩
      | currentView =>
        exact ⟨h.hidden, h.single, fun hr => h.modalFlag (hrenewed _ (by decide) hr), fun _ => rfl,
          fun hr => h.quitFlag (hrenewed _ (by decide) hr), h.phase, h.waiting, h.one, h.sent,
          h.quits, h.restarts⟩
      | quitConfirmActive =>
        exact ⟨h.hidden, h.single, fun hr => h.modalFlag (hrenewed _ (by decide) hr),
          fun hr => h.viewFlag (hrenewed _ (by decide) hr), fun _ hup => hup, h.phase, h.waiting,
          h.one, h.sent, h.quits, h.restarts⟩
    · cases hstep

/-- INTERNAL: **one step of either thread.** -/
theorem Attentive.step (h : Attentive s) (a : TerminalStep) (hcalm : CaughtUp s a)
    (hstep : s.step a = some s') : Attentive s' := by
  cases a with
  | key k =>
    unfold Terminal.step at hstep
    split at hstep
    · cases hstep
    · dsimp only at hstep
      split at hstep
      · rw [← Option.some.inj hstep]
        exact h.read s k hcalm.1 hcalm.2
      · cases hstep
  | loadModal dropped => exact h.loadModal s s' dropped hstep
  | loadQuit dropped => exact h.loadQuit s s' dropped hstep
  | loadView dropped => exact h.loadView s s' dropped hstep
  | apply now => exact h.apply s s' now hstep
  | store => exact h.store s s' hstep
  | other now u =>
    unfold Terminal.step at hstep
    split at hstep
    · cases hstep
    · dsimp only at hstep
      split at hstep
      · next hready =>
        obtain ⟨⟨m', e⟩, happly, hs'⟩ := Option.map_eq_some_iff.mp hstep
        rw [← hs']
        exact h.undisturbed s m' _ hready.1
          (undisturbed_external now s.console m' u e hready.2 happly)
      · cases hstep
  | tick now =>
    unfold Terminal.step at hstep
    split at hstep
    · cases hstep
    · dsimp only at hstep
      split at hstep
      · next hready =>
        rw [← Option.some.inj hstep]
        exact h.undisturbed s _ _ hready (undisturbed_expire s.console now)
      · cases hstep

end Step

/-- INTERNAL: every run in which each key is read once the loop has caught up. -/
theorem attentive_run (historyBudget : ℕ) (steps : List TerminalStep) (s : Terminal)
    (hcalm : RunsUnder Terminal.step CaughtUp (Terminal.start historyBudget) steps)
    (hrun : run Terminal.step (Terminal.start historyBudget) steps = some s) : Attentive s :=
  run_invariant_under Terminal.step CaughtUp Attentive
    (fun s a s' h hok hstep => h.step s s' a hok hstep) _ steps s
    (attentive_start historyBudget) hcalm hrun

/-- CODE: runtime.rs:285-450, 497-763 — **the keys act on what is shown**: when every key is read
after the effect of the last one was published, at most one prompt is open, each update on its
way from the keyboard is what its key means to the console that will apply it, or the dismissal
of a question that has run out, and only `q` quits, only `y` or `Y` restarts. -/
theorem keys_act_on_shown (historyBudget : ℕ) (steps : List TerminalStep) (s : Terminal)
    (hcalm : RunsUnder Terminal.step CaughtUp (Terminal.start historyBudget) steps)
    (hrun : run Terminal.step (Terminal.start historyBudget) steps = some s) :
    (openPrompts s.console).length ≤ 1 ∧
      (∀ k u, (k, u) ∈ s.channel → MeantFor s.console k u) ∧
      (∀ k, s.exited = some (.quit k) → k = .char 'q') ∧
      ∀ k, s.exited = some (.restart k) → k = .char 'y' ∨ k = .char 'Y' := by
  have h := attentive_run historyBudget steps s hcalm hrun
  exact ⟨h.single, h.sent, h.quits, h.restarts⟩

/-- INTERNAL: decidable, so that it can be tested on a run. -/
instance (s : Terminal) : ∀ a : TerminalStep, Decidable (CaughtUp s a)
  | .key _ => inferInstanceAs (Decidable (s.toStore = [] ∧ s.channel = []))
  | .loadModal _ | .loadQuit _ | .loadView _ | .apply _ | .other _ _ | .store | .tick _ =>
    inferInstanceAs (Decidable True)

/-- INTERNAL: a key of the table, from the poll to the send. -/
def press (k : KeyCode) : List TerminalStep :=
  [.key k, .loadModal false, .loadQuit false, .loadView false]

/-- INTERNAL: the flags are stored. -/
def published : List TerminalStep := [.store, .store, .store]

/-- CODE: runtime.rs:285-450 — `q`, and `q` again within two seconds. -/
theorem keys_act_on_shown_quit :
    ∃ s, run Terminal.step (Terminal.start 4)
        (press (.char 'q') ++ [.apply 0] ++ published ++ press (.char 'q') ++ [.apply 1]) =
          some s ∧
      s.exited = some (.quit (.char 'q')) ∧ (openPrompts s.console).length ≤ 1 := by
  have hexit : (run Terminal.step (Terminal.start 4)
      (press (.char 'q') ++ [.apply 0] ++ published ++ press (.char 'q') ++ [.apply 1])).map
        Terminal.exited = some (some (.quit (.char 'q'))) := by decide +kernel
  obtain ⟨s, hrun, hs⟩ := Option.map_eq_some_iff.mp hexit
  have hshown := keys_act_on_shown 4 _ s (by decide +kernel) hrun
  exact ⟨s, hrun, hs, hshown.1⟩

end TracingConsole.Analysis.Console
