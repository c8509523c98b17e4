import Mathlib.Data.List.Forall2
import PiDaemon.Base.Transition

/-!
# A message bus with a shared register

Members join a bus, take a name, and from then on send messages to each other by name
and read and write one register that all of them share. The bus keeps what every
member has said and heard. A name belongs to one member at a time, and a member whose
first request does not get it a name is dismissed.

Two laws say what the bus is for. While two members are there, one hears from the other
what that one has said to it, in the same order, and nothing else. And whatever else a
member asks for is answered, request by request.
-/

namespace PiDaemon.Base

/-- What a member asks for; `register none` asks for a name that cannot be given. -/
inductive Request (ν σ δ : Type*)
  | register (name : Option ν)
  | read
  | write (s : σ)
  | send (dest : ν) (data : δ)
  | ping
  | garbled
  deriving DecidableEq, Repr

inductive Fault
  | notRegistered
  | garbled
  | nameTaken
  | unknownName
  deriving DecidableEq, Repr

inductive Reply (ν σ δ : Type*)
  | welcome
  | value (s : σ)
  | pong
  | message (src : ν) (data : δ)
  | fault (f : Fault)
  deriving DecidableEq, Repr

inductive Standing (ν : Type*)
  | stranger
  | named (n : ν)
  | dismissed
  deriving DecidableEq, Repr

structure Member (ν σ δ : Type*) where
  standing : Standing ν := .stranger
  said : List (Request ν σ δ) := []
  heard : List (Reply ν σ δ) := []

structure Bus (κ ν σ δ : Type*) where
  members : κ → Option (Member ν σ δ)
  /-- everybody who has ever joined -/
  joined : Set κ
  register : σ

variable {κ ν σ δ : Type*}

def Request.to? [DecidableEq ν] (dest : ν) : Request ν σ δ → Option δ
  | .send n d => if n = dest then some d else none
  | .register _ | .read | .write _ | .ping | .garbled => none

def Reply.from? [DecidableEq ν] (src : ν) : Reply ν σ δ → Option δ
  | .message n d => if n = src then some d else none
  | .welcome | .value _ | .pong | .fault _ => none

def Request.isSend : Request ν σ δ → Bool
  | .send _ _ => true
  | .register _ | .read | .write _ | .ping | .garbled => false

/-- The reply is what a `send` leads to, at one end or the other. -/
def Reply.ofSend : Reply ν σ δ → Bool
  | .message _ _ | .fault .unknownName => true
  | .welcome | .value _ | .pong | .fault _ => false

/-- How a request of a named member that is not a `send` is answered. -/
def Request.Fits : Request ν σ δ → Reply ν σ δ → Prop
  | .read, .value _ => True
  | .write s, .value s' => s' = s
  | .ping, .pong => True
  | .garbled, .fault .garbled => True
  | .register _, .fault .garbled => True
  | _, _ => False

namespace Bus

def start (s : σ) : Bus κ ν σ δ := ⟨fun _ => none, ∅, s⟩

def Holds (b : Bus κ ν σ δ) (k : κ) (n : ν) : Prop :=
  ∃ m, b.members k = some m ∧ m.standing = .named n

def Free (b : Bus κ ν σ δ) (n : ν) : Prop := ∀ k, ¬b.Holds k n

/-- What becomes of a request of member `k`, by how it stands: who hears what, what the
register holds then, and how `k` stands then. -/
inductive Answers (b : Bus κ ν σ δ) (k : κ) :
    Standing ν → Request ν σ δ → κ → Reply ν σ δ → σ → Standing ν → Prop
  | welcome {n : ν} : b.Free n →
      Answers b k .stranger (.register (some n)) k .welcome b.register (.named n)
  | taken {n : ν} : ¬b.Free n →
      Answers b k .stranger (.register (some n)) k (.fault .nameTaken) b.register .dismissed
  | nameless : Answers b k .stranger (.register none) k (.fault .garbled) b.register .dismissed
  | unknown {r : Request ν σ δ} : (∀ n, r ≠ .register n) →
      Answers b k .stranger r k (.fault .notRegistered) b.register .dismissed
  | read {n : ν} : Answers b k (.named n) .read k (.value b.register) b.register (.named n)
  | write {n : ν} (s : σ) : Answers b k (.named n) (.write s) k (.value s) s (.named n)
  | relay {n dest : ν} {d : δ} {j : κ} : b.Holds j dest →
      Answers b k (.named n) (.send dest d) j (.message n d) b.register (.named n)
  | nobody {n dest : ν} {d : δ} : b.Free dest →
      Answers b k (.named n) (.send dest d) k (.fault .unknownName) b.register (.named n)
  | pong {n : ν} : Answers b k (.named n) .ping k .pong b.register (.named n)
  | garbled {n : ν} {r : Request ν σ δ} : (r = .garbled ∨ ∃ name, r = .register name) →
      Answers b k (.named n) r k (.fault .garbled) b.register (.named n)

/-! ## Names -/

structure Ok (b : Bus κ ν σ δ) : Prop where
  names {i j : κ} {n : ν} : b.Holds i n → b.Holds j n → i = j
  joined {k : κ} {m : Member ν σ δ} : b.members k = some m → k ∈ b.joined

theorem ok_start (s : σ) : (start s : Bus κ ν σ δ).Ok where
  names := fun ⟨_, h, _⟩ => by cases h
  joined h := by cases h

theorem Answers.standing {b : Bus κ ν σ δ} {k j : κ} {st st' : Standing ν} {r : Request ν σ δ}
    {x : Reply ν σ δ} {s : σ} (h : b.Answers k st r j x s st') :
    (st' = st ∧ ∃ n, st = .named n) ∨
      (st = .stranger ∧ (st' = .dismissed ∨ ∃ n, st' = .named n ∧ b.Free n)) := by
  cases h with
  | welcome hfree => exact .inr ⟨rfl, .inr ⟨_, rfl, hfree⟩⟩
  | taken | nameless | unknown => exact .inr ⟨rfl, .inl rfl⟩
  | read | write | relay | nobody | pong | garbled => exact .inl ⟨rfl, _, rfl⟩

/-! ## Steps -/

section Steps
variable [DecidableEq κ]

def join (b : Bus κ ν σ δ) (k : κ) : Bus κ ν σ δ :=
  { b with members := Function.update b.members k (some {}), joined := insert k b.joined }

def leave (b : Bus κ ν σ δ) (k : κ) : Bus κ ν σ δ :=
  { b with members := Function.update b.members k none }

def exchange (b : Bus κ ν σ δ) (k : κ) (r : Request ν σ δ) (st : Standing ν) (j : κ)
    (x : Reply ν σ δ) (s : σ) : Bus κ ν σ δ where
  members l := (b.members l).map fun m =>
    { standing := if l = k then st else m.standing
      said := m.said ++ if l = k then [r] else []
      heard := m.heard ++ if l = j then [x] else [] }
  joined := b.joined
  register := s

inductive Step (b : Bus κ ν σ δ) : Bus κ ν σ δ → Prop
  | join (k : κ) : k ∉ b.joined → Step b (b.join k)
  | leave (k : κ) : Step b (b.leave k)
  | say (k : κ) {m : Member ν σ δ} {r : Request ν σ δ} {j : κ} {x : Reply ν σ δ} {s : σ}
      {st : Standing ν} : b.members k = some m → b.Answers k m.standing r j x s st →
      Step b (b.exchange k r st j x s)

abbrev Steps : Bus κ ν σ δ → Bus κ ν σ δ → Prop := Relation.ReflTransGen Step

theorem holds_exchange {b : Bus κ ν σ δ} {k j l : κ} {m : Member ν σ δ} {r : Request ν σ δ}
    {x : Reply ν σ δ} {s : σ} {st : Standing ν} {n : ν} (hk : b.members k = some m)
    (h : b.Answers k m.standing r j x s st) (hl : (b.exchange k r st j x s).Holds l n) :
    b.Holds l n ∨ (l = k ∧ b.Free n) := by
  obtain ⟨m', hm', hn⟩ := hl
  obtain ⟨m₀, hm₀, rfl⟩ := Option.map_eq_some_iff.mp hm'
  by_cases hlk : l = k
  · subst hlk
    rw [hk] at hm₀
    cases hm₀
    simp only [if_true] at hn
    rcases h.standing with ⟨heq, -⟩ | ⟨-, hst | ⟨n', hst, hfree⟩⟩
    · exact .inl ⟨m, hk, heq ▸ hn⟩
    · rw [hst] at hn
      cases hn
    · rw [hst] at hn
      cases hn
      exact .inr ⟨rfl, hfree⟩
  · simp only [hlk, if_false] at hn
    exact .inl ⟨m₀, hm₀, hn⟩

theorem Ok.step {b b' : Bus κ ν σ δ} (h : b.Ok) (hstep : Step b b') : b'.Ok := by
  cases hstep with
  | join k hk =>
    have hold {l : κ} {n : ν} (hl : (b.join k).Holds l n) : b.Holds l n := by
      obtain ⟨m, hm, hn⟩ := hl
      by_cases hlk : l = k
      · subst hlk
        simp only [join, Function.update_self, Option.some.injEq] at hm
        subst hm
        cases hn
      · exact ⟨m, by simpa [join, hlk] using hm, hn⟩
    refine ⟨fun hi hj => h.names (hold hi) (hold hj), fun {l m} hm => ?_⟩
    by_cases hlk : l = k
    · exact hlk ▸ Set.mem_insert _ _
    · exact Set.mem_insert_of_mem _ (h.joined (m := m) (by simpa [join, hlk] using hm))
  | leave k =>
    have hkeep {l : κ} {m : Member ν σ δ} (hm : (b.leave k).members l = some m) :
        b.members l = some m := by
      by_cases hlk : l = k
      · subst hlk
        simp [leave] at hm
      · simpa [leave, hlk] using hm
    exact ⟨fun ⟨m, hm, hn⟩ ⟨m', hm', hn'⟩ => h.names ⟨m, hkeep hm, hn⟩ ⟨m', hkeep hm', hn'⟩,
      fun hm => h.joined (hkeep hm)⟩
  | say k hk hans =>
    refine ⟨fun hi hj => ?_, fun hm => ?_⟩
    · rcases holds_exchange hk hans hi with hi' | ⟨hik, hfree⟩ <;>
        rcases holds_exchange hk hans hj with hj' | ⟨hjk, hfree'⟩
      · exact h.names hi' hj'
      · exact absurd hi' (hfree' _)
      · exact absurd hj' (hfree _)
      · exact hik.trans hjk.symm
    · obtain ⟨m₀, hm₀, -⟩ := Option.map_eq_some_iff.mp hm
      exact h.joined hm₀

theorem Ok.steps {b b' : Bus κ ν σ δ} (h : b.Ok) (hsteps : Steps b b') : b'.Ok :=
  steps_invariant (I := Ok) (fun _ _ => Ok.step) hsteps h

/-! ## What is heard from whom -/

theorem exchange_member {b : Bus κ ν σ δ} {k j l : κ} {m m' : Member ν σ δ} {r : Request ν σ δ}
    {x : Reply ν σ δ} {s : σ} {st : Standing ν} (hl : b.members l = some m)
    (hl' : (b.exchange k r st j x s).members l = some m') :
    m'.standing = (if l = k then st else m.standing) ∧
      m'.said = m.said ++ (if l = k then [r] else []) ∧
        m'.heard = m.heard ++ if l = j then [x] else [] := by
  obtain ⟨m₀, hm₀, rfl⟩ := Option.map_eq_some_iff.mp hl'
  cases hl.symm.trans hm₀
  exact ⟨rfl, rfl, rfl⟩

theorem exchange_keeps_name {b : Bus κ ν σ δ} {k j l : κ} {m m₁ m' : Member ν σ δ}
    {r : Request ν σ δ} {x : Reply ν σ δ} {s : σ} {st : Standing ν} {n : ν}
    (hk : b.members k = some m) (h : b.Answers k m.standing r j x s st)
    (hl : b.members l = some m₁) (hl' : (b.exchange k r st j x s).members l = some m')
    (hn : m₁.standing = .named n) : m'.standing = .named n := by
  rw [(exchange_member hl hl').1]
  split_ifs with hlk
  · subst hlk
    cases hk.symm.trans hl
    rcases h.standing with ⟨heq, -⟩ | ⟨hst, -⟩
    · exact heq.trans hn
    · cases hst.symm.trans hn
  · exact hn

/-- A step is an exchange, or changes nothing about those who are there before and after it. -/
theorem Step.calm_or_say {b b' : Bus κ ν σ δ} (hok : b.Ok) (h : Step b b') :
    (∀ k m m', b.members k = some m → b'.members k = some m' → m' = m) ∨
      ∃ k m r j x s st, b.members k = some m ∧ b.Answers k m.standing r j x s st ∧
        b' = b.exchange k r st j x s := by
  cases h with
  | join l hl =>
    refine .inl fun k m m' hm hm' => ?_
    have hkl : k ≠ l := fun heq => hl (heq ▸ hok.joined hm)
    have hsame : b.members k = some m' := by simpa [Bus.join, hkl] using hm'
    exact Option.some.inj (hsame.symm.trans hm)
  | leave l =>
    refine .inl fun k m m' hm hm' => ?_
    by_cases hkl : k = l
    · subst hkl
      simp [Bus.leave] at hm'
    · have hsame : b.members k = some m' := by simpa [Bus.leave, hkl] using hm'
      exact Option.some.inj (hsame.symm.trans hm)
  | say k hk hans => exact .inr ⟨k, _, _, _, _, _, _, hk, hans, rfl⟩

/-- Who is there after a step and had joined before was there before. -/
theorem Step.present {b b' : Bus κ ν σ δ} (h : Step b b') {k : κ} (hk : k ∈ b.joined)
    {m' : Member ν σ δ} (hm' : b'.members k = some m') : ∃ m, b.members k = some m := by
  cases h with
  | join l hl =>
    have hkl : k ≠ l := fun heq => hl (heq ▸ hk)
    exact ⟨m', by simpa [Bus.join, hkl] using hm'⟩
  | leave l =>
    by_cases hkl : k = l
    · subst hkl
      simp [Bus.leave] at hm'
    · exact ⟨m', by simpa [Bus.leave, hkl] using hm'⟩
  | say =>
    obtain ⟨m, hm, -⟩ := Option.map_eq_some_iff.mp hm'
    exact ⟨m, hm⟩

theorem Step.joined {b b' : Bus κ ν σ δ} (h : Step b b') {k : κ} (hk : k ∈ b.joined) :
    k ∈ b'.joined := by
  cases h with
  | join => exact Set.mem_insert_of_mem _ hk
  | leave | say => exact hk

theorem joined_steps {b b' : Bus κ ν σ δ} (h : Steps b b') {k : κ} (hk : k ∈ b.joined) :
    k ∈ b'.joined :=
  steps_invariant (I := fun b => k ∈ b.joined) (fun _ _ hs hst => hst.joined hs) h hk

section Relay
variable [DecidableEq ν] {b b' : Bus κ ν σ δ} {i j : κ} {a c : ν}

/-- One request: what `j` hears from `i` is what `i` says to it. -/
theorem Answers.relays {k l : κ} {m : Member ν σ δ} {r : Request ν σ δ} {x : Reply ν σ δ} {s : σ}
    {st : Standing ν} (hok : b.Ok) (hk : b.members k = some m)
    (h : b.Answers k m.standing r l x s st) (hi : b.Holds i a) (hj : b.Holds j c) :
    (if j = l then [x] else []).filterMap (Reply.from? a) =
      (if i = k then [r] else []).filterMap (Request.to? c) := by
  -- only a relayed message is heard as one, and only a `send` is one
  have hquiet (hx : x.from? a = none) (hr : i = k → r.to? c = none) :
      (if j = l then [x] else []).filterMap (Reply.from? a) =
        (if i = k then [r] else []).filterMap (Request.to? c) := by
    split_ifs with hjl hik hik <;> simp [hx, hr, hik]
  generalize hst : m.standing = standing at h
  cases h with
  | @relay n dest d _ hdest =>
    have hkn : b.Holds k n := ⟨m, hk, hst⟩
    by_cases hjl : j = l
    · subst hjl
      have hcd : dest = c := by
        obtain ⟨m₁, hm₁, h₁⟩ := hdest
        obtain ⟨m₂, hm₂, h₂⟩ := hj
        cases hm₁.symm.trans hm₂
        exact (Standing.named.inj (h₁.symm.trans h₂))
      by_cases hik : i = k
      · subst hik
        have hna : n = a := by
          obtain ⟨m₂, hm₂, h₂⟩ := hi
          cases hk.symm.trans hm₂
          exact Standing.named.inj (hst.symm.trans h₂)
        simp [Reply.from?, Request.to?, hcd, hna]
      · have hna : n ≠ a := fun heq => hik (hok.names hi (heq ▸ hkn))
        simp [Reply.from?, hik, hna]
    · have hdc : dest ≠ c := fun heq => hjl (hok.names hj (heq ▸ hdest))
      simp [Request.to?, hjl, hdc]
  | @nobody _ dest _ hfree =>
    have hne : dest ≠ c := fun heq => hfree j (heq ▸ hj)
    exact hquiet rfl fun _ => by simp [Request.to?, hne]
  | unknown hr =>
    refine hquiet rfl fun hik => ?_
    subst hik
    obtain ⟨m₂, hm₂, h₂⟩ := hi
    cases hk.symm.trans hm₂
    cases hst.symm.trans h₂
  | garbled hr =>
    refine hquiet rfl fun _ => ?_
    rcases hr with rfl | ⟨n, rfl⟩ <;> rfl
  | welcome | taken | nameless | read | write | pong => exact hquiet rfl fun _ => rfl

/-- As long as `i` and `j` are there, `j` hears from `i` what `i` says to it, in the same
order, whoever else says what in between. -/
theorem relay_in_order (hok : b.Ok) (hsteps : Steps b b') {mi mj mi' mj' : Member ν σ δ}
    (hi : b.members i = some mi) (hj : b.members j = some mj) (hin : mi.standing = .named a)
    (hjn : mj.standing = .named c) (hi' : b'.members i = some mi') (hj' : b'.members j = some mj') :
    mi'.standing = .named a ∧ mj'.standing = .named c ∧ ∃ said heard,
      mi'.said = mi.said ++ said ∧ mj'.heard = mj.heard ++ heard ∧
        heard.filterMap (Reply.from? a) = said.filterMap (Request.to? c) := by
  induction hsteps generalizing mi' mj' with
  | refl =>
    cases hi.symm.trans hi'
    cases hj.symm.trans hj'
    exact ⟨hin, hjn, [], [], by simp, by simp, rfl⟩
  | @tail b₁ b₂ hpre hstep ih =>
    have hok₁ := hok.steps hpre
    obtain ⟨mi₁, hi₁⟩ := hstep.present (joined_steps hpre (hok.joined hi)) hi'
    obtain ⟨mj₁, hj₁⟩ := hstep.present (joined_steps hpre (hok.joined hj)) hj'
    obtain ⟨hin₁, hjn₁, said, heard, hsaid, hheard, heq⟩ := ih hi₁ hj₁
    rcases hstep.calm_or_say hok₁ with hcalm | ⟨k, m, r, l, x, s, st, hk, hans, rfl⟩
    · rw [hcalm i mi₁ mi' hi₁ hi', hcalm j mj₁ mj' hj₁ hj']
      exact ⟨hin₁, hjn₁, said, heard, hsaid, hheard, heq⟩
    · have hrel := hans.relays hok₁ hk ⟨mi₁, hi₁, hin₁⟩ ⟨mj₁, hj₁, hjn₁⟩
      refine ⟨exchange_keeps_name hk hans hi₁ hi' hin₁, exchange_keeps_name hk hans hj₁ hj' hjn₁,
        said ++ if i = k then [r] else [], heard ++ if j = l then [x] else [], ?_, ?_, ?_⟩
      · rw [(exchange_member hi₁ hi').2.1, hsaid, List.append_assoc]
      · rw [(exchange_member hj₁ hj').2.2, hheard, List.append_assoc]
      · rw [List.filterMap_append, List.filterMap_append, heq, hrel]

end Relay

end Steps

end Bus

/-! ## Request by request -/

namespace Member

/-- What a member has said and heard, by how it stands: a stranger nothing, one who was
dismissed its only request and a fault, and a named one its registration and the welcome,
and from then on, messages and what they lead to apart, one reply for each request. -/
inductive Served : Member ν σ δ → Prop
  | stranger : Served ⟨.stranger, [], []⟩
  | dismissed (r : Request ν σ δ) (f : Fault) : Served ⟨.dismissed, [r], [.fault f]⟩
  | named (n : ν) (said : List (Request ν σ δ)) (heard : List (Reply ν σ δ)) :
      List.Forall₂ Request.Fits (said.filter fun r => !r.isSend)
        (heard.filter fun x => !x.ofSend) →
      Served ⟨.named n, .register (some n) :: said, .welcome :: heard⟩

theorem Served.sends {m : Member ν σ δ} {n : ν} (h : m.Served) (hn : m.standing = .named n)
    (rs : List (Request ν σ δ)) (xs : List (Reply ν σ δ)) (hrs : ∀ r ∈ rs, r.isSend = true)
    (hxs : ∀ x ∈ xs, x.ofSend = true) : Served ⟨.named n, m.said ++ rs, m.heard ++ xs⟩ := by
  cases h with
  | named n' said heard hfits =>
    cases hn
    refine .named n (said ++ rs) (heard ++ xs) ?_
    have hrs₀ : rs.filter (fun r => !r.isSend) = [] := List.filter_eq_nil_iff.mpr (by simpa using hrs)
    have hxs₀ : xs.filter (fun x => !x.ofSend) = [] := List.filter_eq_nil_iff.mpr (by simpa using hxs)
    rw [List.filter_append, List.filter_append, hrs₀, hxs₀, List.append_nil, List.append_nil]
    exact hfits
  | stranger | dismissed => cases hn

theorem Served.asks {m : Member ν σ δ} {n : ν} (h : m.Served) (hn : m.standing = .named n)
    {r : Request ν σ δ} {x : Reply ν σ δ} (hr : r.isSend = false) (hx : x.ofSend = false)
    (hfit : r.Fits x) : Served ⟨.named n, m.said ++ [r], m.heard ++ [x]⟩ := by
  cases h with
  | named n' said heard hfits =>
    cases hn
    refine .named n (said ++ [r]) (heard ++ [x]) ?_
    rw [List.filter_append, List.filter_append]
    exact List.rel_append hfits (by simp [hr, hx, hfit])
  | stranger | dismissed => cases hn

end Member

namespace Bus

variable {b b' : Bus κ ν σ δ}

theorem Answers.served {k : κ} {m : Member ν σ δ} {r : Request ν σ δ} {x : Reply ν σ δ} {s : σ}
    {st : Standing ν} (h : b.Answers k m.standing r k x s st) (hm : m.Served) :
    Member.Served ⟨st, m.said ++ [r], m.heard ++ [x]⟩ := by
  generalize hst : m.standing = standing at h
  have hstranger (h : m.standing = .stranger) : m.said = [] ∧ m.heard = [] := by
    cases hm with
    | stranger => exact ⟨rfl, rfl⟩
    | dismissed | named => cases h
  cases h with
  | @welcome n =>
    rw [(hstranger hst).1, (hstranger hst).2]
    exact .named n [] [] .nil
  | taken | nameless | unknown =>
    rw [(hstranger hst).1, (hstranger hst).2]
    exact .dismissed _ _
  | read | write | pong => exact hm.asks hst rfl rfl (by simp [Request.Fits])
  | garbled hr =>
    rcases hr with rfl | ⟨name, rfl⟩
    · exact hm.asks hst rfl rfl trivial
    · exact hm.asks hst rfl rfl trivial
  | relay | nobody => exact hm.sends hst _ _ (by simp [Request.isSend]) (by simp [Reply.ofSend])

theorem Answers.heard_by_other {k j : κ} {m : Member ν σ δ} {r : Request ν σ δ}
    {x : Reply ν σ δ} {s : σ} {st : Standing ν} (h : b.Answers k m.standing r j x s st)
    (hjk : j ≠ k) : r.isSend = true ∧ x.ofSend = true ∧ st = m.standing ∧
      (∃ n, m.standing = .named n) ∧ ∃ n, b.Holds j n := by
  generalize hst : m.standing = standing at h
  cases h with
  | @relay n dest d _ hdest => exact ⟨rfl, rfl, rfl, ⟨n, rfl⟩, ⟨dest, hdest⟩⟩
  | welcome | taken | nameless | unknown | read | write | nobody | pong | garbled =>
    exact absurd rfl hjk

section Steps
variable [DecidableEq κ]

theorem served_step (h : ∀ k m, b.members k = some m → m.Served) (hstep : Step b b') :
    ∀ k m, b'.members k = some m → m.Served := by
  intro l m' hm'
  cases hstep with
  | join k =>
    by_cases hlk : l = k
    · subst hlk
      simp only [join, Function.update_self, Option.some.injEq] at hm'
      exact hm' ▸ .stranger
    · exact h l m' (by simpa [join, hlk] using hm')
  | leave k =>
    by_cases hlk : l = k
    · subst hlk
      simp [leave] at hm'
    · exact h l m' (by simpa [leave, hlk] using hm')
  | @say k m r j x s st hk hans =>
    obtain ⟨m₀, hm₀, rfl⟩ := Option.map_eq_some_iff.mp hm'
    by_cases hjk : j = k
    · subst hjk
      by_cases hlk : l = j
      · subst hlk
        cases hk.symm.trans hm₀
        simpa using hans.served (h l m hk)
      · simpa [hlk] using h l m₀ hm₀
    · obtain ⟨hr, hx, hst, ⟨n, hn⟩, n', hj⟩ := hans.heard_by_other hjk
      by_cases hlk : l = k
      · subst hlk
        cases hk.symm.trans hm₀
        have hlj : l ≠ j := fun heq => hjk heq.symm
        have := (h l m hk).sends hn [r] [] (by simpa using hr) (by simp)
        simpa [hst, hn, hlj] using this
      · by_cases hlj : l = j
        · subst hlj
          obtain ⟨mj, hmj, hn'⟩ := hj
          cases hmj.symm.trans hm₀
          have := (h l _ hmj).sends hn' [] [x] (by simp) (by simpa using hx)
          simpa [hlk, hn'] using this
        · simpa [hlk, hlj] using h l m₀ hm₀

/-- Every member is served request by request, whatever the others do. -/
theorem served_steps (h : ∀ k m, b.members k = some m → m.Served) (hsteps : Steps b b') :
    ∀ k m, b'.members k = some m → m.Served :=
  steps_invariant (I := fun b : Bus κ ν σ δ => ∀ k m, b.members k = some m → m.Served)
    (fun _ _ hs hst => served_step hs hst) hsteps h

end Steps

end Bus

end PiDaemon.Base
