/-
The walk keeps to the sequential reading.

At every rule the walk has asked, named and set what the reading has. Each race is
bound where it stands, and is judged by the responses the reading has there. The
walk waits only for responses that have not come.
-/

import Sail.App.Dns.Reading

namespace Sail.App.Dns

variable {Message : Type} {rule : Rule Message} {options : QueryOptions}

namespace Client

variable (client : Client Message)

structure RaceOf (n : Nat) (race : Race Message) : Prop where
  before : race.index < n
  rule : client.rules[race.index]? = some race.rule
  races : race.rule.race = true
  applies : client.applies race.rule = true
  bound : race.bound = (client.reading race.index).bind race.rule.needs

/-- What the evaluations of the walk have to do with the reading in front of an
index. -/
structure Tracks (n : Nat) (ev : Evaluations Message) : Prop where
  latest : ev.latest = (client.reading n).latest
  tagged : ev.tagged = (client.reading n).tagged
  inflight : ∀ entry ∈ ev.inflight, (client.reading n).asked entry.1 = some entry.2
  done : ∀ index response, ev.done.lookup index = some response →
    (client.reading n).asked index = some response
  come : ∀ index response, (client.reading n).asked index = some response →
    ev.done.lookup index = some response ∨ (index, response) ∈ ev.inflight
  races : ∀ race ∈ ev.races, client.RaceOf n race

def Judged (n : Nat) (ev : Evaluations Message) : Prop :=
  ∀ index rule, index < n → client.rules[index]? = some rule → rule.race = true →
    client.applies rule = true →
      (∃ race ∈ ev.races, race.index = index) ∨
        client.matchesAt (client.reading index) rule = false

structure Wins (n : Nat) (ev : Evaluations Message) (race : Race Message) : Prop where
  of : client.RaceOf n race
  ready : ev.ready race.bound = true
  matched : client.matchesAt (client.reading race.index) race.rule = true

variable {client} {n : Nat} {ev : Evaluations Message} {arrivals : List Nat}

theorem ready_iff {bound : Bound} :
    ev.ready bound = true ↔
      ∀ ref index, (ref, some index) ∈ bound → (ev.done.lookup index).isSome = true := by
  unfold Evaluations.ready
  rw [List.all_eq_true]
  constructor
  · intro all ref index member
    simpa using all _ member
  · intro come entry member
    obtain ⟨ref, named⟩ := entry
    cases named with
    | none => rfl
    | some index => simpa using come ref index member

section

variable (tracks : client.Tracks n ev)

include tracks

/-- What has come is what was asked. -/
theorem Tracks.answers_eq {index m : Nat} (later : m ≤ n)
    (come : (ev.done.lookup index).isSome = true)
    (asked : ∃ response, (client.reading m).asked index = some response) :
    ev.answers index = (client.reading m).answers index := by
  obtain ⟨response, lookup⟩ := Option.isSome_iff_exists.mp come
  obtain ⟨other, before⟩ := asked
  have same := asked_mono later before
  rw [tracks.done index response lookup] at same
  cases same
  unfold Evaluations.answers Reading.answers
  rw [lookup, before]

/-- A rule whose responses have come is judged as where it stands. -/
theorem Tracks.judge_eq {m : Nat} (later : m ≤ n) {needs : List ResponseRef}
    (ready : ev.ready ((client.reading m).bind needs) = true) :
    client.judge rule ((client.reading m).bind needs) ev.answers =
      client.judge rule ((client.reading m).bind needs) (client.reading m).answers := by
  refine judge_congr ?_
  intro ref index member
  have named : bindRef (client.reading m).latest (client.reading m).tagged ref = some index := by
    obtain ⟨other, _, same⟩ := List.mem_map.mp member
    obtain ⟨rfl, named⟩ := Prod.mk.inj same
    exact named
  exact tracks.answers_eq later (ready_iff.mp ready ref index member) (named_asked named)

theorem Tracks.judge_race {race : Race Message} (of : client.RaceOf n race)
    (ready : ev.ready race.bound = true) :
    client.judge race.rule race.bound ev.answers =
      client.matchesAt (client.reading race.index) race.rule := by
  rw [of.bound] at ready ⊢
  rw [tracks.judge_eq (Nat.le_of_lt of.before) ready]
  unfold matchesAt
  rw [of.applies, Bool.true_and]

/-! ### Judging the races -/

structure JudgesRaces (client : Client Message) (n : Nat) (ev : Evaluations Message)
    (races : List (Race Message)) (outcome : Option (Race Message) × List (Race Message)) :
    Prop where
  kept : ∀ race ∈ outcome.2, race ∈ races
  gone : ∀ race ∈ races, race ∈ outcome.2 ∨
    client.matchesAt (client.reading race.index) race.rule = false
  won : ∀ race, outcome.1 = some race → client.Wins n ev race
  pending : outcome.1 = none → ∀ race ∈ outcome.2, ev.ready race.bound = false

theorem Tracks.judgeRaces (races : List (Race Message))
    (of : ∀ race ∈ races, client.RaceOf n race) :
    client.JudgesRaces n ev races (client.judgeRaces ev races) := by
  induction races with
  | nil =>
    exact ⟨fun _ member => member, fun _ member => (by cases member),
      fun _ impossible => (by cases impossible), fun _ _ member => (by cases member)⟩
  | cons race rest ih =>
    have first := of race List.mem_cons_self
    have judged := ih (List.forall_mem_cons.mp of).2
    unfold Client.judgeRaces
    cases ready : ev.ready race.bound with
    | false =>
      refine ⟨?_, ?_, judged.won, ?_⟩
      · intro other member
        rcases List.mem_cons.mp member with rfl | later
        · exact List.mem_cons_self
        · exact List.mem_cons_of_mem _ (judged.kept other later)
      · intro other member
        rcases List.mem_cons.mp member with rfl | later
        · exact .inl List.mem_cons_self
        · exact (judged.gone other later).imp_left (List.mem_cons_of_mem _)
      · intro none other member
        rcases List.mem_cons.mp member with rfl | later
        · exact ready
        · exact judged.pending none other later
    | true =>
      have verdict := tracks.judge_race first ready
      cases matched : client.judge race.rule race.bound ev.answers with
      | true =>
        rw [matched] at verdict
        refine ⟨fun _ member => member, fun _ member => .inl member, ?_,
          nofun⟩
        intro other same
        cases same
        exact ⟨first, ready, verdict.symm⟩
      | false =>
        rw [matched] at verdict
        refine ⟨fun other member => List.mem_cons_of_mem _ (judged.kept other member), ?_,
          judged.won, judged.pending⟩
        intro other member
        rcases List.mem_cons.mp member with rfl | later
        · exact .inr verdict.symm
        · exact judged.gone other later

/-! ### Moves of the walk between rules -/

structure Moves (client : Client Message) (n : Nat) (ev : Evaluations Message)
    (outcome : Option (Race Message) × Evaluations Message) : Prop where
  tracks : client.Tracks n outcome.2
  judged : client.Judged n ev → client.Judged n outcome.2
  grows : ∀ index, (ev.done.lookup index).isSome = true →
    (outcome.2.done.lookup index).isSome = true
  won : ∀ race, outcome.1 = some race → client.Wins n outcome.2 race

theorem Moves.refl : client.Moves n ev (none, ev) :=
  ⟨tracks, id, fun _ come => come, fun _ impossible => (by cases impossible)⟩

end

theorem Moves.trans {middle : Evaluations Message}
    {outcome : Option (Race Message) × Evaluations Message}
    {won : Option (Race Message)} (first : client.Moves n ev (won, middle))
    (second : client.Moves n middle outcome) : client.Moves n ev outcome :=
  ⟨second.tracks, fun judged => second.judged (first.judged judged),
    fun index come => second.grows index (first.grows index come), second.won⟩

theorem Tracks.judgePending (tracks : client.Tracks n ev) :
    client.Moves n ev (client.judgePending ev) ∧
      ((client.judgePending ev).1 = none →
        ∀ race ∈ (client.judgePending ev).2.races, ev.ready race.bound = false) := by
  have judges := tracks.judgeRaces ev.races tracks.races
  refine ⟨⟨?_, ?_, fun _ come => come, ?_⟩, judges.pending⟩
  · exact ⟨tracks.latest, tracks.tagged, tracks.inflight, tracks.done, tracks.come,
      fun race member => tracks.races race (judges.kept race member)⟩
  · intro judged index rule before found races applies
    rcases judged index rule before found races applies with ⟨race, member, same⟩ | not
    · rcases judges.gone race member with kept | lost
      · exact .inl ⟨race, kept, same⟩
      · have of := tracks.races race member
        rw [same] at lost
        have sameRule := of.rule
        rw [same, found] at sameRule
        cases sameRule
        exact .inr lost
    · exact .inr not
  · intro race won
    have wins := judges.won race won
    exact ⟨wins.of, wins.ready, wins.matched⟩

def Evaluated (client : Client Message) (index : Nat) : Prop :=
  ∃ n response, (client.reading n).asked index = some response

/-- Waiting means that none of the responses waited for has come. -/
def Stuck (client : Client Message) (arrivals pending : List Nat) : Prop :=
  pending ≠ [] ∧ ∀ index ∈ pending, client.Evaluated index ∧ index ∉ arrivals

/-- What waiting gives: a move behind which something holds if no race is won. -/
def Sound (client : Client Message) (arrivals : List Nat) (n : Nat) (ev : Evaluations Message)
    (post : Evaluations Message → Prop)
    (progress : Progress (Option (Race Message) × Evaluations Message)) : Prop :=
  match progress with
  | .waiting pending => client.Stuck arrivals pending
  | .ended outcome => client.Moves n ev outcome ∧ (outcome.1 = none → post outcome.2)

theorem Sound.of_moves {middle : Evaluations Message} {won : Option (Race Message)}
    {post : Evaluations Message → Prop}
    {progress : Progress (Option (Race Message) × Evaluations Message)}
    (first : client.Moves n ev (won, middle))
    (second : client.Sound arrivals n middle post progress) :
    client.Sound arrivals n ev post progress := by
  cases progress with
  | waiting pending => exact second
  | ended outcome => exact ⟨first.trans second.1, second.2⟩

section

variable (tracks : client.Tracks n ev)

include tracks

/-- A response comes. -/
theorem Tracks.arrive {index : Nat} {response : Option Message}
    (member : (index, response) ∈ ev.inflight) :
    client.Tracks n
      { ev with
        inflight := ev.inflight.eraseP (fun entry => entry.1 = index)
        done := ev.done.insert index response } := by
  have own := tracks.inflight _ member
  refine ⟨tracks.latest, tracks.tagged, ?_, ?_, ?_, tracks.races⟩
  · intro entry inside
    exact tracks.inflight entry (List.mem_of_mem_eraseP inside)
  · exact KeyedMap.every_insert tracks.done own
  · intro other answer asked
    rw [KeyedMap.lookup_insert_ite]
    by_cases same : other = index
    · subst same
      rw [own] at asked
      rw [if_pos rfl]
      exact .inl asked
    · rw [if_neg same]
      rcases tracks.come other answer asked with done | flying
      · exact .inl done
      · refine .inr ((List.mem_eraseP_of_neg ?_).mpr flying)
        simpa using same

theorem Tracks.advance (flying : ev.inflight ≠ []) :
    client.Sound arrivals n ev (fun after => after.inflight.length + 1 = ev.inflight.length)
      (client.advance arrivals ev) := by
  unfold Client.advance
  cases found : arrivals.findSome? (fun index =>
      ev.inflight.find? (fun entry => entry.1 = index)) with
  | none =>
    refine ⟨by simpa using flying, ?_⟩
    intro index member
    obtain ⟨entry, inside, rfl⟩ := List.mem_map.mp member
    refine ⟨⟨n, entry.2, tracks.inflight entry inside⟩, fun arrived => ?_⟩
    have absent := List.find?_eq_none.mp (List.findSome?_eq_none_iff.mp found entry.1 arrived)
      entry inside
    simp at absent
  | some entry =>
    obtain ⟨index, response⟩ := entry
    obtain ⟨asked, _, here⟩ := List.exists_of_findSome?_eq_some found
    have inside := List.mem_of_find?_eq_some here
    have comes := tracks.arrive inside
    have judges := comes.judgePending
    refine ⟨⟨judges.1.tracks, ?_, ?_, judges.1.won⟩, ?_⟩
    · intro judged
      exact judges.1.judged judged
    · intro other come
      refine judges.1.grows other ?_
      rw [KeyedMap.lookup_insert_ite]
      split_ifs
      · rfl
      · exact come
    · intro _
      have shorter : (ev.inflight.eraseP (fun entry => decide (entry.1 = index))).length =
          ev.inflight.length - 1 :=
        List.length_eraseP_of_mem inside (decide_eq_true rfl)
      have positive := List.length_pos_of_mem inside
      change (ev.inflight.eraseP _).length + 1 = _
      omega

theorem Tracks.waitFor {index : Nat}
    (asked : ∃ response, (client.reading n).asked index = some response) (fuel : Nat)
    (enough : ev.inflight.length ≤ fuel) :
    client.Sound arrivals n ev (fun after => (after.done.lookup index).isSome = true)
      (client.waitFor arrivals index fuel ev) := by
  obtain ⟨response, asked⟩ := asked
  have landed : ∀ {now : Evaluations Message}, client.Tracks n now → now.inflight = [] →
      (now.done.lookup index).isSome = true := by
    intro now tracks empty
    rcases tracks.come index response asked with done | flying
    · rw [done]
      rfl
    · rw [empty] at flying
      cases flying
  induction fuel generalizing ev with
  | zero => exact ⟨.refl tracks, fun _ => landed tracks (List.length_eq_zero_iff.mp
      (Nat.le_zero.mp enough))⟩
  | succ fuel ih =>
    unfold Client.waitFor
    by_cases ends : ((ev.done.lookup index).isSome || ev.inflight.isEmpty) = true
    · rw [if_pos ends]
      refine ⟨.refl tracks, fun _ => ?_⟩
      rcases Bool.or_eq_true_iff.mp ends with come | empty
      · exact come
      · exact landed tracks (List.isEmpty_iff.mp empty)
    · rw [if_neg ends]
      have flying : ev.inflight ≠ [] := by
        intro empty
        rw [empty] at ends
        simp at ends
      have advances : client.Sound arrivals n ev _ (client.advance arrivals ev) :=
        tracks.advance flying
      generalize client.advance arrivals ev = progress at advances ⊢
      cases progress with
      | waiting pending => exact advances
      | ended outcome =>
        obtain ⟨won, after⟩ := outcome
        obtain ⟨moves, shorter⟩ := advances
        cases won with
        | some race => exact ⟨moves, nofun⟩
        | none =>
          have less := shorter rfl
          dsimp only at less
          exact .of_moves moves (ih moves.tracks (by omega))

theorem Tracks.waitAll (indices : List Nat)
    (asked : ∀ index ∈ indices, ∃ response, (client.reading n).asked index = some response) :
    client.Sound arrivals n ev
      (fun after => ∀ index ∈ indices, (after.done.lookup index).isSome = true)
      (client.waitAll arrivals indices ev) := by
  induction indices generalizing ev with
  | nil => exact ⟨.refl tracks, nofun⟩
  | cons index rest ih =>
    have waits : client.Sound arrivals n ev _ (client.wait arrivals index ev) :=
      tracks.waitFor (asked index List.mem_cons_self) _ (Nat.le_refl _)
    unfold Client.waitAll
    generalize client.wait arrivals index ev = progress at waits ⊢
    cases progress with
    | waiting pending => exact waits
    | ended outcome =>
      obtain ⟨won, after⟩ := outcome
      obtain ⟨moves, come⟩ := waits
      cases won with
      | some race => exact ⟨moves, nofun⟩
      | none =>
        have onward := ih moves.tracks
          (List.forall_mem_cons.mp asked).2
        dsimp only
        generalize client.waitAll arrivals rest after = progress at onward ⊢
        cases progress with
        | waiting pending => exact onward
        | ended outcome =>
          refine ⟨moves.trans onward.1, fun none other member => ?_⟩
          rcases List.mem_cons.mp member with rfl | later
          · exact onward.1.grows other (come rfl)
          · exact onward.2 none other later

/-- With nothing in flight every race can be judged. -/
theorem Tracks.ready_of_landed (landed : ev.inflight = []) {race : Race Message}
    (of : client.RaceOf n race) : ev.ready race.bound = true := by
  rw [ready_iff, of.bound]
  intro ref index member
  obtain ⟨other, _, same⟩ := List.mem_map.mp member
  obtain ⟨rfl, named⟩ := Prod.mk.inj same
  obtain ⟨response, asked⟩ := named_asked named
  rcases tracks.come index response (asked_mono (Nat.le_of_lt of.before) asked) with done | flying
  · rw [done]
    rfl
  · rw [landed] at flying
    cases flying

/-- Judging with nothing in flight leaves no race. -/
theorem Tracks.judgePending_landed (landed : ev.inflight = [])
    (none : (client.judgePending ev).1 = none) : (client.judgePending ev).2.races = [] := by
  obtain ⟨moves, pending⟩ := tracks.judgePending
  refine List.eq_nil_iff_forall_not_mem.mpr (fun race member => ?_)
  have ready := tracks.ready_of_landed landed (moves.tracks.races race member)
  rw [pending none race member] at ready
  cases ready

theorem Tracks.settleFor (fuel : Nat) (enough : ev.inflight.length ≤ fuel) :
    client.Sound arrivals n ev (fun after => after.races = [])
      (client.settleFor arrivals fuel ev) := by
  induction fuel generalizing ev with
  | zero =>
    have landed := List.length_eq_zero_iff.mp (Nat.le_zero.mp enough)
    exact ⟨tracks.judgePending.1, tracks.judgePending_landed landed⟩
  | succ fuel ih =>
    have moves := tracks.judgePending.1
    have empties := tracks.judgePending_landed
    have kept : (client.judgePending ev).2.inflight = ev.inflight := rfl
    unfold Client.settleFor
    generalize client.judgePending ev = outcome at moves empties kept ⊢
    obtain ⟨won, after⟩ := outcome
    cases won with
    | some race => exact ⟨moves, nofun⟩
    | none =>
      dsimp only at kept empties ⊢
      by_cases ends : (after.races.isEmpty || after.inflight.isEmpty) = true
      · rw [if_pos ends]
        refine ⟨moves, fun _ => ?_⟩
        rcases Bool.or_eq_true_iff.mp ends with judged | landed
        · exact List.isEmpty_iff.mp judged
        · rw [kept] at landed
          exact empties (List.isEmpty_iff.mp landed) rfl
      · rw [if_neg ends]
        have flying : after.inflight ≠ [] := by
          intro landed
          rw [landed] at ends
          simp at ends
        have advances : client.Sound arrivals n after _ (client.advance arrivals after) :=
          moves.tracks.advance flying
        generalize client.advance arrivals after = progress at advances ⊢
        cases progress with
        | waiting pending => exact advances
        | ended outcome =>
          obtain ⟨won, later⟩ := outcome
          obtain ⟨comes, shorter⟩ := advances
          cases won with
          | some race =>
            exact ⟨moves.trans comes, nofun⟩
          | none =>
            have less := shorter rfl
            dsimp only at less
            rw [kept] at less
            exact .of_moves (moves.trans comes) (ih comes.tracks (by omega))

theorem Tracks.settle :
    client.Sound arrivals n ev (fun after => after.races = []) (client.settle arrivals ev) :=
  tracks.settleFor _ (Nat.le_refl _)

end

/-! ### One rule -/

def Undecided (client : Client Message) (n : Nat) : Prop :=
  ∀ index rule, index < n → client.rules[index]? = some rule → rule.race = false →
    rule.action.decides = true → client.matchesAt (client.reading index) rule = false

def RacesLost (client : Client Message) (n : Nat) : Prop :=
  ∀ index rule, index < n → client.rules[index]? = some rule → rule.race = true →
    client.applies rule = true → client.matchesAt (client.reading index) rule = false

/-- A rule decides that matches where it stands; a race rule may have been passed
since. -/
structure DecidesBy (client : Client Message) (decision : Decision Message) (index : Nat)
    (rule : Rule Message) : Prop where
  found : client.rules[index]? = some rule
  matched : client.matchesAt (client.reading index) rule = true
  decides : rule.action.decides = true
  undecided : client.Undecided index
  before : index ≤ decision.passed
  single : rule.race = false → client.RacesLost index ∧ decision.passed = index
  responded : ∃ ev, client.Tracks decision.passed ev ∧
    ev.ready ((client.reading index).bind rule.needs) = true ∧
    decision.responded = respondsWith rule ev

structure Decides (client : Client Message) (decision : Decision Message) : Prop where
  options : decision.options = (client.reading decision.passed).options
  final : decision.rule = none →
    decision.responded = none ∧ decision.passed = client.rules.length ∧
      client.Undecided client.rules.length ∧ client.RacesLost client.rules.length
  rule : ∀ index rule, decision.rule = some (index, rule) → client.DecidesBy decision index rule

structure Walks (client : Client Message) (n : Nat) (ev : Evaluations Message)
    (options : QueryOptions) : Prop where
  tracks : client.Tracks n ev
  options : options = (client.reading n).options
  judged : client.Judged n ev
  undecided : client.Undecided n

def Looks (client : Client Message) (arrivals : List Nat) (n : Nat) (look : Look Message) : Prop :=
  match look with
  | .goesOn ev options => client.Walks (n + 1) ev options
  | .decided decision => client.Decides decision
  | .waiting pending => client.Stuck arrivals pending

theorem Undecided.mono {m : Nat} (undecided : client.Undecided n) (earlier : m ≤ n) :
    client.Undecided m :=
  fun index rule before found => undecided index rule (Nat.lt_of_lt_of_le before earlier) found

/-- A race that is won decides. -/
theorem Wins.decides {race : Race Message} (wins : client.Wins n ev race)
    (tracks : client.Tracks n ev) (undecided : client.Undecided n) :
    client.Decides (decideRule race.index race.rule ev (client.reading n).options n) := by
  refine ⟨rfl, nofun, ?_⟩
  intro index rule same
  cases same
  have before := Nat.le_of_lt wins.of.before
  refine ⟨wins.of.rule, wins.matched, race.rule.race_decides wins.of.races,
    undecided.mono before, before, ?_, ev, tracks, ?_, rfl⟩
  · intro single
    rw [wins.of.races] at single
    cases single
  · rw [← wins.of.bound]
    exact wins.ready

/-- Behind a wait the walk goes on, or a race was won. -/
theorem Sound.andThen {post : Evaluations Message → Prop}
    {progress : Progress (Option (Race Message) × Evaluations Message)} {m : Nat}
    {onward : Evaluations Message → Look Message} (undecided : client.Undecided n)
    (sound : client.Sound arrivals n ev post progress)
    (goes : ∀ after, client.Moves n ev (none, after) → post after →
      client.Looks arrivals m (onward after)) :
    client.Looks arrivals m (progress.andThen (client.reading n).options n onward) := by
  cases progress with
  | waiting pending => exact sound
  | ended outcome =>
    obtain ⟨won, after⟩ := outcome
    cases won with
    | some race => exact (sound.1.won race rfl).decides sound.1.tracks undecided
    | none => exact goes after sound.1 (sound.2 rfl)

theorem RaceOf.later {m : Nat} {race : Race Message} (of : client.RaceOf n race) (later : n ≤ m) :
    client.RaceOf m race :=
  ⟨Nat.lt_of_lt_of_le of.before later, of.rule, of.races, of.applies, of.bound⟩

/-- A rule that asks nothing leaves the evaluations as they are. -/
theorem Tracks.skip (tracks : client.Tracks n ev)
    (asked : (client.reading (n + 1)).asked = (client.reading n).asked)
    (latest : (client.reading (n + 1)).latest = (client.reading n).latest)
    (tagged : (client.reading (n + 1)).tagged = (client.reading n).tagged) :
    client.Tracks (n + 1) ev := by
  refine ⟨tracks.latest.trans latest.symm, tracks.tagged.trans tagged.symm, ?_, ?_, ?_,
    fun race member => (tracks.races race member).later (Nat.le_succ n)⟩
  · rw [asked]
    exact tracks.inflight
  · rw [asked]
    exact tracks.done
  · rw [asked]
    exact tracks.come

/-- An evaluate rule's query goes out. -/
theorem Tracks.ask (tracks : client.Tracks n ev) {tag : Option String} {response : Option Message}
    (asks : client.reading (n + 1) = (client.reading n).ask n tag response) :
    client.Tracks (n + 1) (ev.ask n tag response) := by
  have asked : ∀ index, (client.reading (n + 1)).asked index =
      if index = n then some response else (client.reading n).asked index := by
    intro index
    rw [asks, ask_asked]
  have older : ∀ {index answer}, (client.reading n).asked index = some answer →
      (client.reading (n + 1)).asked index = some answer :=
    fun old => asked_mono (Nat.le_succ n) old
  have inflight : (ev.ask n tag response).inflight = ev.inflight ++ [(n, response)] := by
    cases tag <;> rfl
  have done : (ev.ask n tag response).done = ev.done := by cases tag <;> rfl
  have races : (ev.ask n tag response).races = ev.races := by cases tag <;> rfl
  refine ⟨?_, ?_, ?_, ?_, ?_, ?_⟩
  · rw [asks]
    cases tag with
    | none => rfl
    | some name => exact tracks.latest
  · rw [asks]
    cases tag with
    | none => exact tracks.tagged
    | some name =>
      change ev.tagged.insert name n = (client.reading n).tagged.insert name n
      rw [tracks.tagged]
  · intro entry member
    rw [inflight] at member
    rcases List.mem_append.mp member with old | new
    · exact older (tracks.inflight entry old)
    · rw [List.mem_singleton.mp new, asked, if_pos rfl]
  · intro index answer lookup
    rw [done] at lookup
    exact older (tracks.done index answer lookup)
  · intro index answer isAsked
    rw [asked] at isAsked
    rw [done, inflight]
    split_ifs at isAsked with own
    · cases isAsked
      rw [own]
      exact .inr (List.mem_append_right _ (List.mem_singleton_self _))
    · exact (tracks.come index answer isAsked).imp_right (List.mem_append_left _)
  · rw [races]
    exact fun race member => (tracks.races race member).later (Nat.le_succ n)

/-- The walk goes on behind a rule that is not raced and decides nothing. -/
theorem Walks.next {after : Evaluations Message} (found : client.rules[n]? = some rule)
    (undecided : client.Undecided n) (judged : client.Judged n after)
    (lost : rule.race = true → client.applies rule = false)
    (passes : rule.race = false → rule.action.decides = true →
      client.matchesAt (client.reading n) rule = false)
    (tracks : client.Tracks (n + 1) after) (sets : options = (client.reading (n + 1)).options) :
    client.Walks (n + 1) after options := by
  refine ⟨tracks, sets, ?_, ?_⟩
  · intro index other before isFound races applies
    rcases Nat.lt_or_eq_of_le (Nat.le_of_lt_succ before) with earlier | rfl
    · exact judged index other earlier isFound races applies
    · rw [found] at isFound
      cases isFound
      rw [lost races] at applies
      cases applies
  · intro index other before isFound single decides
    rcases Nat.lt_or_eq_of_le (Nat.le_of_lt_succ before) with earlier | rfl
    · exact undecided index other earlier isFound single decides
    · rw [found] at isFound
      cases isFound
      exact passes single decides

/-- A rule that decides, with the races in front of it lost. -/
theorem decides_rule (found : client.rules[n]? = some rule) (undecided : client.Undecided n)
    (decides : rule.action.decides = true)
    (matched : client.matchesAt (client.reading n) rule = true) (tracks : client.Tracks n ev)
    (judged : client.Judged n ev) (lost : ev.races = [])
    (ready : ev.ready ((client.reading n).bind rule.needs) = true) :
    client.Decides (decideRule n rule ev (client.reading n).options n) := by
  refine ⟨rfl, nofun, ?_⟩
  intro index other same
  cases same
  refine ⟨found, matched, decides, undecided, Nat.le_refl _, fun _ => ⟨?_, rfl⟩, ev, tracks, ready,
    rfl⟩
  intro index other before isFound races applies
  rcases judged index other before isFound races applies with ⟨race, member, _⟩ | not
  · rw [lost] at member
    cases member
  · exact not

theorem Tracks.take (tracks : client.Tracks n ev) (found : client.rules[n]? = some rule)
    (undecided : client.Undecided n) (judged : client.Judged n ev) (single : rule.race = false)
    (matched : client.matchesAt (client.reading n) rule = true)
    (ready : ev.ready ((client.reading n).bind rule.needs) = true) :
    client.Looks arrivals n (client.take arrivals n rule ev (client.reading n).options) := by
  have reads := reading_succ found
  unfold readRule at reads
  rw [if_neg (by simp [single, matched])] at reads
  have raced : rule.race = true → client.applies rule = false := by
    intro races
    rw [single] at races
    cases races
  have still : ∀ {after}, client.Moves n ev (none, after) →
      after.ready ((client.reading n).bind rule.needs) = true := by
    intro after moves
    rw [ready_iff] at ready ⊢
    exact fun ref index member => moves.grows index (ready ref index member)
  have decides : rule.action.decides = true → client.Looks arrivals n
      (if ev.races.isEmpty then .decided (decideRule n rule ev (client.reading n).options n)
        else (client.settle arrivals ev).andThen (client.reading n).options n
          (fun ev => .decided (decideRule n rule ev (client.reading n).options n))) := by
    intro isDecision
    by_cases none : ev.races.isEmpty = true
    · rw [if_pos none]
      exact decides_rule found undecided isDecision matched tracks judged (List.isEmpty_iff.mp none)
        ready
    · rw [if_neg none]
      refine Sound.andThen undecided tracks.settle (fun after moves lost => ?_)
      exact decides_rule found undecided isDecision matched moves.tracks (moves.judged judged) lost
        (still moves)
  unfold Client.take
  cases action : rule.action with
  | routeOptions set =>
    rw [action] at reads
    refine Walks.next found undecided judged raced ?_ (tracks.skip ?_ ?_ ?_) ?_
    · intro _ isDecision
      rw [action] at isDecision
      cases isDecision
    all_goals rw [reads]
  | evaluate server tag own =>
    rw [action] at reads
    have goes : ∀ after, client.Tracks n after → client.Judged n after →
        client.Walks (n + 1) (after.ask n tag (client.resolve (some n) server
          ((client.reading n).options.withLater own)).toOption) (client.reading n).options := by
      intro after tracks judged
      have kept : ∀ response, (after.ask n tag response).races = after.races := by
        intro response
        cases tag <;> rfl
      refine Walks.next found undecided ?_ raced ?_ (tracks.ask reads) ?_
      · unfold Judged
        rw [kept]
        exact judged
      · intro _ isDecision
        rw [action] at isDecision
        cases isDecision
      · rw [reads]
        cases tag <;> rfl
    dsimp only
    split_ifs
    · exact Sound.andThen undecided tracks.settle (fun after moves _ =>
        goes after moves.tracks (moves.judged judged))
    · exact goes ev tracks judged
  | _ => exact decides (by rw [action]; rfl)

theorem Walks.skip (walks : client.Walks n ev options) (found : client.rules[n]? = some rule)
    (single : rule.race = true → client.applies rule = false)
    (not : rule.race = false → client.matchesAt (client.reading n) rule = false) :
    client.Walks (n + 1) ev options := by
  have same : client.reading (n + 1) = client.reading n := by
    rw [reading_succ found]
    refine if_pos ?_
    cases races : rule.race with
    | true => rfl
    | false => simp [not races]
  exact .next found walks.undecided walks.judged single (fun races _ => not races)
    (walks.tracks.skip (by rw [same]) (by rw [same]) (by rw [same])) (by rw [same, walks.options])

/-- A race rule is bound where it stands. -/
theorem Walks.race (walks : client.Walks n ev options) (found : client.rules[n]? = some rule)
    (races : rule.race = true) (applies : client.applies rule = true) :
    client.Walks (n + 1)
      { ev with races := ev.races ++ [{ index := n, rule, bound := ev.bind rule.needs }] }
      options := by
  have same : client.reading (n + 1) = client.reading n := by
    rw [reading_succ found]
    unfold readRule
    rw [races]
    rfl
  have bound : ev.bind rule.needs = (client.reading n).bind rule.needs := by
    unfold Evaluations.bind Reading.bind
    rw [walks.tracks.latest, walks.tracks.tagged]
  have skipped := walks.tracks.skip (by rw [same]) (by rw [same]) (by rw [same])
  refine ⟨⟨skipped.latest, skipped.tagged, skipped.inflight, skipped.done, skipped.come, ?_⟩,
    by rw [same, walks.options], ?_, ?_⟩
  · intro race member
    rcases List.mem_append.mp member with old | new
    · exact skipped.races race old
    · cases List.mem_singleton.mp new
      exact ⟨Nat.lt_succ_self n, found, races, applies, bound⟩
  · intro index other before isFound isRace isApplied
    rcases Nat.lt_or_eq_of_le (Nat.le_of_lt_succ before) with earlier | rfl
    · rcases walks.judged index other earlier isFound isRace isApplied with ⟨race, old, own⟩ | not
      · exact .inl ⟨race, List.mem_append_left _ old, own⟩
      · exact .inr not
    · exact .inl ⟨_, List.mem_append_right _ (List.mem_singleton_self _), rfl⟩
  · intro index other before isFound single
    rcases Nat.lt_or_eq_of_le (Nat.le_of_lt_succ before) with earlier | rfl
    · exact walks.undecided index other earlier isFound single
    · rw [found] at isFound
      cases isFound
      rw [races] at single
      cases single

theorem Walks.look (walks : client.Walks n ev options) (found : client.rules[n]? = some rule) :
    client.Looks arrivals n (client.look arrivals n rule ev options) := by
  have bound : ev.bind rule.needs = (client.reading n).bind rule.needs := by
    unfold Evaluations.bind Reading.bind
    rw [walks.tracks.latest, walks.tracks.tagged]
  unfold Client.look
  cases applies : client.applies rule with
  | false =>
    refine walks.skip found (fun _ => applies) (fun _ => ?_)
    unfold matchesAt
    rw [applies, Bool.false_and]
  | true =>
    cases races : rule.race with
    | true =>
      have raced := walks.race found races applies
      have judges : client.Sound arrivals (n + 1) _ (fun _ => True)
          (.ended (client.judgePending _)) := ⟨raced.tracks.judgePending.1, fun _ => trivial⟩
      rw [if_pos rfl, raced.options]
      refine Sound.andThen raced.undecided judges (fun after moves _ => ?_)
      exact ⟨moves.tracks, rfl, moves.judged raced.judged, raced.undecided⟩
    | false =>
      rw [if_neg (by simp), walks.options, bound]
      refine Sound.andThen walks.undecided (walks.tracks.waitAll _ ?_) (fun after moves come => ?_)
      · intro index member
        obtain ⟨entry, inside, names⟩ := List.mem_filterMap.mp member
        obtain ⟨ref, _, rfl⟩ := List.mem_map.mp inside
        exact named_asked names
      · have ready : after.ready ((client.reading n).bind rule.needs) = true := by
          refine ready_iff.mpr (fun ref index member => come index ?_)
          exact List.mem_filterMap.mpr ⟨_, member, rfl⟩
        have verdict : client.judge rule ((client.reading n).bind rule.needs) after.answers =
            client.matchesAt (client.reading n) rule := by
          rw [moves.tracks.judge_eq (Nat.le_refl n) ready]
          unfold matchesAt
          rw [applies, Bool.true_and]
        rw [verdict]
        cases matched : client.matchesAt (client.reading n) rule with
        | false =>
          have kept : client.Walks n after (client.reading n).options :=
            ⟨moves.tracks, rfl, moves.judged walks.judged, walks.undecided⟩
          exact kept.skip found (fun raced => by rw [races] at raced; cases raced)
            (fun _ => matched)
        | true =>
          exact moves.tracks.take found walks.undecided (moves.judged walks.judged) races
            matched ready

/-! ### The whole list -/

def Ends (client : Client Message) (arrivals : List Nat) :
    Progress (Decision Message) → Prop
  | .ended decision => client.Decides decision
  | .waiting pending => client.Stuck arrivals pending

theorem Walks.walkFrom (rest : List (Rule Message)) (walks : client.Walks n ev options)
    (behind : client.rules.drop n = rest) (within : n ≤ client.rules.length) :
    client.Ends arrivals (client.walkFrom arrivals n rest ev options) := by
  induction rest generalizing n ev options with
  | nil =>
    have last : n = client.rules.length :=
      Nat.le_antisymm within (List.drop_eq_nil_iff.mp behind)
    have settles : client.Sound arrivals n ev _ (client.settle arrivals ev) := walks.tracks.settle
    unfold Client.walkFrom
    rw [walks.options]
    generalize client.settle arrivals ev = progress at settles ⊢
    cases progress with
    | waiting pending => exact settles
    | ended outcome =>
      obtain ⟨won, after⟩ := outcome
      obtain ⟨moves, lost⟩ := settles
      cases won with
      | some race => exact (moves.won race rfl).decides moves.tracks walks.undecided
      | none =>
        have judged := moves.judged walks.judged
        refine ⟨rfl, fun _ => ⟨rfl, last, last ▸ walks.undecided, ?_⟩,
          fun _ _ impossible => (by cases impossible)⟩
        intro index rule before found races applies
        rcases judged index rule (last ▸ before) found races applies with
          ⟨race, member, _⟩ | not
        · rw [lost rfl] at member
          cases member
        · exact not
  | cons rule rest ih =>
    have found : client.rules[n]? = some rule := by
      rw [← List.head?_drop, behind]
      rfl
    have looks : client.Looks arrivals n (client.look arrivals n rule ev options) :=
      walks.look found
    unfold Client.walkFrom
    generalize client.look arrivals n rule ev options = look at looks ⊢
    cases look with
    | waiting _ | decided _ => exact looks
    | goesOn after set =>
      refine ih looks ?_ (List.getElem?_eq_some_iff.mp found).1
      rw [← List.drop_drop, behind]
      rfl

/-- Every walk decides by the reading, or waits for responses that do not come. -/
theorem ends_decision (client : Client Message) (arrivals : List Nat) :
    client.Ends arrivals (client.decision arrivals) := by
  have starts : client.Walks 0 .new client.startOptions := by
    refine ⟨⟨rfl, rfl, fun _ member => (by cases member), fun _ _ lookup => (by cases lookup),
      fun _ _ asked => (by cases asked), fun _ member => (by cases member)⟩, rfl,
      fun _ _ before => (by cases before), fun _ _ before => (by cases before)⟩
  exact starts.walkFrom client.rules rfl (Nat.zero_le _)

end Client

end Sail.App.Dns
