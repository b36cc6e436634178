/-
The rule list read in order.

Each matching evaluate rule is answered before the next rule is looked at. Race
rules are passed over here: what they are bound to is fixed where they stand. The
walk keeps to this reading while responses come in any order.
-/

import Sail.App.Dns.Rules

namespace Sail.App.Dns

variable {Message : Type}

structure Reading (Message : Type) where
  asked : Nat → Option (Option Message)
  latest : Option Nat
  tagged : KeyedMap String Nat
  options : QueryOptions

namespace Reading

def bind (reading : Reading Message) (needs : List ResponseRef) : Bound :=
  bindRefs reading.latest reading.tagged needs

def answers (reading : Reading Message) (index : Nat) : Option Message :=
  (reading.asked index).join

def ask (reading : Reading Message) (index : Nat) (tag : Option String)
    (response : Option Message) : Reading Message :=
  let asked := fun other => if other = index then some response else reading.asked other
  match tag with
  | none => { reading with asked, latest := some index }
  | some name => { reading with asked, tagged := reading.tagged.insert name index }

def respondsWith (rule : Rule Message) (reading : Reading Message) : Option Message :=
  match rule.action, rule.response with
  | .respond, some ref => responseOf reading.answers (reading.bind [ref]) ref
  | _, _ => none

end Reading

namespace Client

variable (client : Client Message)

def matchesAt (reading : Reading Message) (rule : Rule Message) : Bool :=
  client.applies rule && client.judge rule (reading.bind rule.needs) reading.answers

def readRule (index : Nat) (rule : Rule Message) (reading : Reading Message) : Reading Message :=
  if rule.race || !client.matchesAt reading rule then reading
  else
    match rule.action with
    | .routeOptions set => { reading with options := reading.options.withLater set }
    | .evaluate server tag own =>
      reading.ask index tag
        (client.resolve (some index) server (reading.options.withLater own)).toOption
    | _ => reading

def start : Reading Message :=
  { asked := fun _ => none, latest := none, tagged := ∅, options := client.startOptions }

def reading : Nat → Reading Message
  | 0 => client.start
  | index + 1 =>
    match client.rules[index]? with
    | none => reading index
    | some rule => client.readRule index rule (reading index)

def readFrom : Nat → List (Rule Message) → Reading Message → Decision Message
  | index, [], reading =>
    { rule := none, responded := none, options := reading.options, passed := index }
  | index, rule :: rest, reading =>
    if client.matchesAt reading rule && rule.action.decides then
      { rule := some (index, rule)
        responded := reading.respondsWith rule
        options := reading.options
        passed := index }
    else readFrom (index + 1) rest (client.readRule index rule reading)

def readAll : Decision Message :=
  client.readFrom 0 client.rules client.start

variable {client} {n : Nat}

theorem reading_succ {rule : Rule Message} (found : client.rules[n]? = some rule) :
    client.reading (n + 1) = client.readRule n rule (client.reading n) := by
  rw [reading, found]

theorem reading_cases (client : Client Message) (n : Nat) :
    client.reading (n + 1) = client.reading n ∨ ∃ rule, client.rules[n]? = some rule ∧
        client.reading (n + 1) = client.readRule n rule (client.reading n) := by
  cases found : client.rules[n]? with
  | none =>
    refine .inl ?_
    rw [reading, found]
  | some rule => exact .inr ⟨rule, rfl, reading_succ found⟩

/-- A rule that is not raced and matches sets options or asks; any other leaves the
reading as it is. -/
theorem readRule_cases (client : Client Message) (index : Nat) (rule : Rule Message)
    (reading : Reading Message) :
    client.readRule index rule reading = reading ∨
      (rule.race = false ∧ client.matchesAt reading rule = true ∧
        ((∃ set, rule.action = .routeOptions set ∧ client.readRule index rule reading =
            { reading with options := reading.options.withLater set }) ∨
          ∃ server tag own, rule.action = .evaluate server tag own ∧
            client.readRule index rule reading = reading.ask index tag
              (client.resolve (some index) server (reading.options.withLater own)).toOption)) := by
  unfold readRule
  by_cases passed : (rule.race || !client.matchesAt reading rule) = true
  · rw [if_pos passed]
    exact .inl rfl
  · obtain ⟨single, matched⟩ := Bool.or_eq_false_iff.mp (Bool.eq_false_iff.mpr passed)
    rw [if_neg passed]
    cases found : rule.action with
    | routeOptions set => exact .inr ⟨single, by simpa using matched, .inl ⟨set, rfl, rfl⟩⟩
    | evaluate server tag own =>
      exact .inr ⟨single, by simpa using matched, .inr ⟨server, tag, own, rfl, rfl⟩⟩
    | _ => exact .inl rfl

/-! ### What a reading has asked -/

theorem ask_asked (reading : Reading Message) (index other : Nat) (tag : Option String)
    (response : Option Message) :
    (reading.ask index tag response).asked other =
      if other = index then some response else reading.asked other := by
  cases tag <;> rfl

def evaluatedRef : Option String → ResponseRef
  | none => .latest
  | some name => .tag name

/-- What a reference names behind a query: the query, or what it named before. -/
theorem ask_named (reading : Reading Message) (index : Nat) (tag : Option String)
    (response : Option Message) (ref : ResponseRef) :
    bindRef (reading.ask index tag response).latest (reading.ask index tag response).tagged ref =
      if ref = evaluatedRef tag then some index else bindRef reading.latest reading.tagged ref := by
  unfold Reading.ask
  cases tag with
  | none => cases ref <;> rfl
  | some given =>
    cases ref with
    | latest => rfl
    | tag name => simp only [bindRef, evaluatedRef, KeyedMap.lookup_insert_ite,
        ResponseRef.tag.injEq]

/-- A rule asks under its own index only. -/
theorem reading_asked {index : Nat} (apart : index ≠ n) :
    (client.reading (n + 1)).asked index = (client.reading n).asked index := by
  rcases reading_cases client n with same | ⟨rule, _, same⟩
  · rw [same]
  · rw [same]
    rcases readRule_cases client n rule (client.reading n) with kept | ⟨_, _, sets | asks⟩
    · rw [kept]
    · obtain ⟨set, _, becomes⟩ := sets
      rw [becomes]
    · obtain ⟨server, tag, own, _, becomes⟩ := asks
      rw [becomes, ask_asked, if_neg apart]

theorem asked_lt {index : Nat} {response : Option Message}
    (asked : (client.reading n).asked index = some response) : index < n := by
  induction n with
  | zero => cases asked
  | succ n ih =>
    by_cases own : index = n
    · omega
    · rw [reading_asked own] at asked
      exact Nat.lt_succ_of_lt (ih asked)

theorem asked_mono {index m : Nat} {response : Option Message} (later : m ≤ n)
    (asked : (client.reading m).asked index = some response) :
    (client.reading n).asked index = some response := by
  have below := asked_lt asked
  induction n, later using Nat.le_induction with
  | base => exact asked
  | succ n later ih =>
    rw [reading_asked (by omega)]
    exact ih

/-- What a reference names has been asked. -/
theorem named_asked {ref : ResponseRef} {index : Nat}
    (named : bindRef (client.reading n).latest (client.reading n).tagged ref = some index) :
    ∃ response, (client.reading n).asked index = some response := by
  induction n with
  | zero => cases ref <;> cases named
  | succ n ih =>
    have before : bindRef (client.reading n).latest (client.reading n).tagged ref = some index →
        ∃ response, (client.reading (n + 1)).asked index = some response := by
      intro named
      obtain ⟨response, asked⟩ := ih named
      exact ⟨response, asked_mono (Nat.le_succ n) asked⟩
    rcases reading_cases client n with same | ⟨rule, _, same⟩
    · rw [same] at named
      exact before named
    · rw [same] at named
      rcases readRule_cases client n rule (client.reading n) with kept | ⟨_, _, sets | asks⟩
      · rw [kept] at named
        exact before named
      · obtain ⟨set, _, becomes⟩ := sets
        rw [becomes] at named
        exact before named
      · obtain ⟨server, tag, own, _, becomes⟩ := asks
        rw [becomes] at named
        rw [ask_named] at named
        split_ifs at named
        · cases named
          rw [same, becomes]
          exact ⟨_, by rw [ask_asked, if_pos rfl]⟩
        · exact before named

/-! ### Judging by the responses bound -/

/-- A rule is judged by the responses bound to it. -/
theorem judge_congr {rule : Rule Message} {bound : Bound} {first second : Nat → Option Message}
    (same : ∀ ref index, (ref, some index) ∈ bound → first index = second index) :
    client.judge rule bound first = client.judge rule bound second := by
  have response : ∀ ref, responseOf first bound ref = responseOf second bound ref := by
    intro ref
    unfold responseOf
    split
    · rename_i index found
      exact same _ index (List.mem_of_find?_eq_some found)
    · rfl
  have responses : responsesOf first bound = responsesOf second bound := by
    exact List.map_congr_left (fun entry _ => by rw [response])
  unfold judge
  dsimp only
  rw [responses]
  split
  · rw [response]
  · rfl

end Client

end Sail.App.Dns
