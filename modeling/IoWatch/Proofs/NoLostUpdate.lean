import IoWatch.Proofs.LastTwo
import IoWatch.Proofs.SharedWindow
import Mathlib.Data.List.Chain
import Mathlib.Data.List.Nodup

/-!
# No update is lost

However the steps of the threads that share a window interleave, each update takes effect once: the
windows that are installed are linked, and each of them belongs to one update. A window that an
update has seen may be out of date, but then it is not built upon.

## Main definitions

* `Point.IsSound`: what a call at a point knows of the windows
* `Linked`, `Underway`, `Sound`: the invariant, for the windows, for a call under way, and whole

## Main results

* `Move.next_eq`: what is installed is the window behind the one that it replaces
* `sound_of_step`, `sound_of_reachable`: the invariant holds of all that is reachable
* `Sound.installsOf_eq`, `Sound.filter_chain_eq`: the window that an update has installed
* `updates_are_linked`: no update is lost, and no look sees a torn window
-/

namespace IoWatch

namespace SharedWindow

open Function (update)

variable {ι : Type}

/-! ## What holds at each point -/

/-- What a call at a point knows of the windows. What it has seen was installed, if not last. -/
def Point.IsSound (chain : List Window) : Point → Prop
  | called _ | installed _ => True
  | loading x => x.isUnreadable = false
  | loaded x seen => x.isUnreadable = false ∧ chain[seen.stamp]? = some seen.window
  | computed x seen next => x.isUnreadable = false ∧ chain[seen.stamp]? = some seen.window ∧
      next = seen.window.advance x
  | looked w => w ∈ chain

/-- A call at a point has installed a window. -/
def Point.HasInstalled (p : Point) : Prop := ∃ x, p = .installed x

theorem getElem?_of_prefix {α : Type} {l l' : List α} (h : l <+: l') {k : Nat} {a : α}
    (ha : l[k]? = some a) : l'[k]? = some a := by
  obtain ⟨later, rfl⟩ := h
  rw [List.getElem?_append_left (List.getElem?_eq_some_iff.mp ha).1, ha]

theorem Point.IsSound.mono {chain chain' : List Window} {p : Point} (h : p.IsSound chain)
    (hchain : chain <+: chain') : p.IsSound chain' := by
  cases p with
  | called | installed | loading => exact h
  | loaded x seen => exact ⟨h.1, getElem?_of_prefix hchain h.2⟩
  | computed x seen next => exact ⟨h.1, getElem?_of_prefix hchain h.2.1, h.2.2⟩
  | looked w => exact hchain.subset h

section Move

variable {cell : Cell} {p p' : Point}

theorem Move.request_eq (h : Move cell p (.goes p')) : p'.request = p.request := by
  cases h <;> rfl

theorem Move.isSound {chain : List Window} (h : Move cell p (.goes p'))
    (hcell : chain[cell.stamp]? = some cell.window) (hp : p.IsSound chain) :
    p'.IsSound chain := by
  cases h with
  | start x hx => exact hx
  | load x => exact ⟨hp, hcell⟩
  | compute x seen => exact ⟨hp.1, hp.2, rfl⟩
  | retry x seen next => exact hp.1
  | see => exact List.mem_of_getElem? hcell

/-- A call that goes on without installing a window has not done so, and is not past it. -/
theorem Move.not_hasInstalled (h : Move cell p (.goes p')) :
    ¬ p.HasInstalled ∧ ¬ p'.HasInstalled := by
  constructor <;> rintro ⟨x, rfl⟩ <;> cases h

/-- What is installed is the window behind the one that it replaces: none has been installed since,
so the one that was seen is the one that is replaced. -/
theorem Move.next_eq {chain : List Window} {next : Window} (h : Move cell p (.installs next p'))
    (hcell : chain[cell.stamp]? = some cell.window) (hp : p.IsSound chain) :
    ∃ x seen, p = .computed x seen next ∧ p' = .installed x ∧ x.isUnreadable = false ∧
      next = ⟨cell.window.current, x⟩ := by
  cases h with
  | install x seen _ hstamp =>
    obtain ⟨hx, hseen, rfl⟩ := hp
    rw [hstamp, hcell] at hseen
    refine ⟨x, seen, rfl, rfl, hx, ?_⟩
    rw [← Option.some.inj hseen, Window.advance_of_readable hx]

end Move

/-- A reply answers a request of a call, given what was installed: an update returns behind its
installation, or for an unreadable sample, and a look returns a window of the chain. -/
def Config.Answers (c : Config ι) (n : Nat) : Request → Reply → Prop
  | .update x, .done => x.isUnreadable = false → n ∈ c.installed.map Prod.fst
  | .look, .saw w => w ∈ c.chain
  | _, _ => False

/-- A reply answers what a call was made for. -/
def Config.Answered (c : Config ι) (n : Nat) (reply : Reply) : Prop :=
  ∃ i r, c.called[n]? = some (i, r) ∧ c.Answers n r reply

theorem Move.answers {c : Config ι} {n : Nat} {p : Point} {reply : Reply}
    (h : Move c.cell p (.returns reply)) (hp : p.IsSound c.chain)
    (hinstalled : p.HasInstalled → n ∈ c.installed.map Prod.fst) :
    c.Answers n p.request reply := by
  cases h with
  | drop x hx => intro hreadable; rw [hx] at hreadable; cases hreadable
  | finish x => exact fun _ => hinstalled ⟨x, rfl⟩
  | tell w => exact hp

/-! ## The invariant -/

/-- The windows that were installed are linked, and the last one is the one that is installed. -/
structure Linked (c : Config ι) : Prop where
  stamp : c.cell.stamp = c.installed.length
  window : c.chain.getLast? = some c.cell.window
  eq_advanceAll : c.cell.window = Window.initial.advanceAll (c.installed.map (·.2.current))
  isChain : c.chain.IsChain fun w next => next.previous = w.current
  isReadable : ∀ w ∈ c.chain, w.IsReadable

/-- What holds of the call that a thread is in. -/
structure Underway (c : Config ι) (i : ι) (n : Nat) (p : Point) : Prop where
  called : c.called[n]? = some (i, p.request)
  isSound : p.IsSound c.chain
  mem_installed_iff : n ∈ c.installed.map Prod.fst ↔ p.HasInstalled

/-- The invariant: each call installs at most one window, with its sample, and has done so if it
has returned. -/
structure Sound (c : Config ι) : Prop where
  linked : Linked c
  underway : ∀ i n p, c.point i = some (n, p) → Underway c i n p
  author : ∀ n w, (n, w) ∈ c.installed → ∃ i, c.called[n]? = some (i, .update w.current)
  once : (c.installed.map Prod.fst).Nodup
  answered : ∀ n reply, (n, reply) ∈ c.returned → c.Answered n reply

theorem Linked.getElem?_stamp {c : Config ι} (h : Linked c) :
    c.chain[c.cell.stamp]? = some c.cell.window := by
  rw [← h.window, List.getLast?_eq_getElem?, h.stamp, Config.chain]
  simp

theorem Config.chain_mono {c c' : Config ι} (h : c.installed <+: c'.installed) :
    c.chain <+: c'.chain := by
  rw [chain, chain, List.cons_prefix_cons]
  exact ⟨rfl, h.map Prod.snd⟩

theorem Config.Answers.mono {c c' : Config ι} {n : Nat} {r : Request} {reply : Reply}
    (h : c.Answers n r reply) (hinstalled : c.installed <+: c'.installed) :
    c'.Answers n r reply := by
  match r, reply, h with
  | .update x, .done, h => exact fun hx => (hinstalled.map Prod.fst).subset (h hx)
  | .look, .saw w, h => exact (chain_mono hinstalled).subset h

theorem Config.Answered.mono {c c' : Config ι} {n : Nat} {reply : Reply} (h : c.Answered n reply)
    (hcalled : c.called <+: c'.called) (hinstalled : c.installed <+: c'.installed) :
    c'.Answered n reply := by
  obtain ⟨i, r, hr, hanswers⟩ := h
  exact ⟨i, r, getElem?_of_prefix hcalled hr, hanswers.mono hinstalled⟩

theorem Linked.congr {c c' : Config ι} (h : Linked c) (hcell : c'.cell = c.cell)
    (hinstalled : c'.installed = c.installed) : Linked c' := by
  obtain ⟨cell, point, called, installed, returned⟩ := c'
  obtain rfl : cell = c.cell := hcell
  obtain rfl : installed = c.installed := hinstalled
  exact ⟨h.stamp, h.window, h.eq_advanceAll, h.isChain, h.isReadable⟩

/-- The window behind the last one can be installed. -/
theorem Linked.install {c c' : Config ι} (h : Linked c) {n : Nat} {x : Sample}
    (hx : x.isUnreadable = false)
    (hcell : c'.cell = ⟨c.cell.stamp + 1, c.cell.window.current, x⟩)
    (hinstalled : c'.installed = c.installed ++ [(n, ⟨c.cell.window.current, x⟩)]) :
    Linked c' := by
  have hchain : c'.chain = c.chain ++ [⟨c.cell.window.current, x⟩] := by
    simp [Config.chain, hinstalled]
  constructor
  case stamp => simp [hcell, hinstalled, h.stamp]
  case window => simp [hchain, hcell]
  case eq_advanceAll =>
    rw [hcell, hinstalled, List.map_append, Window.advanceAll_append, ← h.eq_advanceAll]
    exact (Window.advance_of_readable hx _).symm
  case isChain =>
    rw [hchain, List.isChain_append]
    refine ⟨h.isChain, List.isChain_singleton _, ?_⟩
    intro w hw next hnext
    rw [h.window] at hw
    obtain rfl := Option.some.inj hw
    obtain rfl := Option.some.inj hnext
    rfl
  case isReadable =>
    intro w hw
    rw [hchain, List.mem_append, List.mem_singleton] at hw
    rcases hw with hw | rfl
    · exact h.isReadable w hw
    · exact ⟨(h.isReadable _ (List.mem_of_getLast? h.window)).current, hx⟩

theorem Underway.mono {c c' : Config ι} {i : ι} {n : Nat} {p : Point} (h : Underway c i n p)
    (hcalled : c.called <+: c'.called) (hinstalled : c.installed <+: c'.installed)
    (hn : n ∈ c'.installed.map Prod.fst → n ∈ c.installed.map Prod.fst) : Underway c' i n p where
  called := getElem?_of_prefix hcalled h.called
  isSound := h.isSound.mono (Config.chain_mono hinstalled)
  mem_installed_iff := by
    rw [← h.mem_installed_iff]
    exact ⟨hn, fun hmem => (hinstalled.map Prod.fst).subset hmem⟩

theorem sound_create : Sound (.create ι) where
  linked :=
    { stamp := rfl
      window := rfl
      eq_advanceAll := rfl
      isChain := List.isChain_singleton _
      isReadable := by
        intro w hw
        rw [List.mem_singleton.mp hw]
        exact Window.isReadable_initial }
  underway := by intro i n p h; cases h
  author := by intro n w h; cases h
  once := List.nodup_nil
  answered := by intro n reply h; cases h

/-- Two threads are in different calls. -/
theorem Sound.ne_of_ne {c : Config ι} {i j : ι} {n m : Nat} {p q : Point} (hs : Sound c)
    (hi : c.point i = some (n, p)) (hj : c.point j = some (m, q)) (hne : j ≠ i) : m ≠ n := by
  rintro rfl
  have hcalled := (hs.underway i m p hi).called.symm.trans (hs.underway j m q hj).called
  rw [Option.some.injEq, Prod.mk.injEq] at hcalled
  exact hne hcalled.1.symm

/-- A call that is not made yet has installed no window. -/
theorem Sound.notMem_installed {c : Config ι} (hs : Sound c) :
    c.called.length ∉ c.installed.map Prod.fst := by
  intro h
  obtain ⟨⟨n, w⟩, hmem, heq⟩ := List.mem_map.mp h
  obtain rfl : n = c.called.length := heq
  obtain ⟨i, hcalled⟩ := hs.author _ w hmem
  rw [List.getElem?_eq_none (Nat.le_refl _)] at hcalled
  cases hcalled

section Steps

variable [DecidableEq ι] {c : Config ι} {i j : ι} {n m : Nat} {p p' q : Point}

/-- Behind the move of one thread, the call of a thread is the one it was moved to, or it is the
call of another thread, which has not moved. -/
theorem point_cases {call : Option (Nat × Point)} (h : update c.point i call j = some (n, p)) :
    (j = i ∧ call = some (n, p)) ∨ (j ≠ i ∧ c.point j = some (n, p)) := by
  by_cases hj : j = i
  · subst hj
    rw [Function.update_self] at h
    exact .inl ⟨rfl, h⟩
  · rw [Function.update_of_ne hj] at h
    exact .inr ⟨hj, h⟩

theorem Sound.begins (hs : Sound c) (i : ι) (r : Request) : Sound { c with
    point := update c.point i (some (c.called.length, .called r))
    called := c.called ++ [(i, r)] } where
  linked := hs.linked.congr rfl rfl
  underway := by
    intro j n p h
    rcases point_cases h with ⟨rfl, heq⟩ | ⟨-, hj⟩
    · cases heq
      refine ⟨by simp [Point.request], trivial, iff_of_false hs.notMem_installed ?_⟩
      rintro ⟨x, hx⟩
      cases hx
    · exact (hs.underway j n p hj).mono (List.prefix_append _ _) (List.prefix_refl _) id
  author := by
    intro n w h
    obtain ⟨j, hcalled⟩ := hs.author n w h
    exact ⟨j, getElem?_of_prefix (List.prefix_append _ _) hcalled⟩
  once := hs.once
  answered := by
    intro n reply h
    exact (hs.answered n reply h).mono (List.prefix_append _ _) (List.prefix_refl _)

theorem Sound.goes (hs : Sound c) (h : c.point i = some (n, p)) (hm : Move c.cell p (.goes p')) :
    Sound { c with point := update c.point i (some (n, p')) } where
  linked := hs.linked.congr rfl rfl
  underway := by
    intro j m q hq
    rcases point_cases hq with ⟨rfl, heq⟩ | ⟨-, hj⟩
    · cases heq
      obtain ⟨hcalled, hsound, hinstalled⟩ := hs.underway j n p h
      refine ⟨?_, hm.isSound hs.linked.getElem?_stamp hsound, ?_⟩
      · rw [hm.request_eq]
        exact hcalled
      · rw [iff_false_right hm.not_hasInstalled.2]
        rwa [iff_false_right hm.not_hasInstalled.1] at hinstalled
    · exact (hs.underway j m q hj).mono (List.prefix_refl _) (List.prefix_refl _) id
  author := hs.author
  once := hs.once
  answered := by
    intro m reply hmem
    exact (hs.answered m reply hmem).mono (List.prefix_refl _) (List.prefix_refl _)

theorem Sound.installs {next : Window} (hs : Sound c) (h : c.point i = some (n, p))
    (hm : Move c.cell p (.installs next p')) : Sound { c with
      cell := ⟨c.cell.stamp + 1, next⟩
      point := update c.point i (some (n, p'))
      installed := c.installed ++ [(n, next)] } := by
  obtain ⟨hcalled, hsound, hinstalled⟩ := hs.underway i n p h
  obtain ⟨x, seen, rfl, rfl, hx, rfl⟩ := hm.next_eq hs.linked.getElem?_stamp hsound
  have hfresh : n ∉ c.installed.map Prod.fst := by
    rw [hinstalled]
    rintro ⟨y, hy⟩
    cases hy
  constructor
  case linked => exact hs.linked.install hx rfl rfl
  case underway =>
    intro j m q hq
    rcases point_cases hq with ⟨rfl, heq⟩ | ⟨hne, hj⟩
    · cases heq
      exact ⟨hcalled, trivial, iff_of_true (by simp) ⟨x, rfl⟩⟩
    · have hm := hs.ne_of_ne h hj hne
      refine (hs.underway j m q hj).mono (List.prefix_refl _) (List.prefix_append _ _) ?_
      intro hmem
      rw [List.map_append, List.mem_append] at hmem
      exact hmem.resolve_right (by simpa using hm)
  case author =>
    intro m w hmem
    rw [List.mem_append, List.mem_singleton] at hmem
    rcases hmem with hmem | heq
    · exact hs.author m w hmem
    · cases heq
      exact ⟨i, hcalled⟩
  case once =>
    rw [List.map_append]
    exact List.Nodup.append hs.once (List.nodup_singleton _) (by simpa using hfresh)
  case answered =>
    intro m reply hmem
    exact (hs.answered m reply hmem).mono (List.prefix_refl _) (List.prefix_append _ _)

theorem Sound.returns {reply : Reply} (hs : Sound c) (h : c.point i = some (n, p))
    (hm : Move c.cell p (.returns reply)) : Sound { c with
      point := update c.point i none
      returned := c.returned ++ [(n, reply)] } where
  linked := hs.linked.congr rfl rfl
  underway := by
    intro j m q hq
    rcases point_cases hq with ⟨-, heq⟩ | ⟨-, hj⟩
    · cases heq
    · exact (hs.underway j m q hj).mono (List.prefix_refl _) (List.prefix_refl _) id
  author := hs.author
  once := hs.once
  answered := by
    intro m reply' hmem
    rw [List.mem_append, List.mem_singleton] at hmem
    rcases hmem with hmem | heq
    · exact (hs.answered m reply' hmem).mono (List.prefix_refl _) (List.prefix_refl _)
    · cases heq
      obtain ⟨hcalled, hsound, hinstalled⟩ := hs.underway i n p h
      have hanswers := hm.answers hsound hinstalled.mpr
      exact ⟨i, p.request, hcalled, hanswers.mono (List.prefix_refl _)⟩

/-- The invariant is kept by all that can happen. -/
theorem sound_of_step {c' : Config ι} (hs : Sound c) (h : Step c c') : Sound c' := by
  cases h with
  | begins i r _ => exact hs.begins i r
  | goes i h hm => exact hs.goes h hm
  | installs i h hm => exact hs.installs h hm
  | returns i h hm => exact hs.returns h hm

theorem sound_of_reachable (h : Reachable c) : Sound c := by
  induction h with
  | refl => exact sound_create
  | tail _ hstep ih => exact sound_of_step ih hstep

end Steps

/-! ## One update -/

theorem filter_of_nodup {l : List (Nat × Window)} (h : (l.map Prod.fst).Nodup) {n : Nat}
    {w : Window} (hmem : (n, w) ∈ l) : (l.filter fun install => install.1 == n) = [(n, w)] := by
  induction l with
  | nil => cases hmem
  | cons install l ih =>
    rw [List.map_cons, List.nodup_cons] at h
    have hlater : ∀ later ∈ l, later.1 ≠ install.1 :=
      fun later hmem heq => h.1 (heq ▸ List.mem_map_of_mem hmem)
    rcases List.mem_cons.mp hmem with rfl | hmem
    · have hnone : (l.filter fun install => install.1 == n) = [] := by
        rw [List.filter_eq_nil_iff]
        intro later hmem
        simpa using hlater later hmem
      rw [List.filter_cons_of_pos (by simp), hnone]
    · have hne : install.1 ≠ n := (hlater (n, w) hmem).symm
      rw [List.filter_cons_of_neg (by simpa using hne), ih h.2 hmem]

section Update

variable {c : Config ι} {i : ι} {n : Nat} {x : Sample} {reply : Reply}

/-- An update that has returned has installed one window, with its sample. -/
theorem Sound.installsOf_eq (hs : Sound c) (hcalled : c.called[n]? = some (i, .update x))
    (hx : x.isUnreadable = false) (hreturned : (n, reply) ∈ c.returned) :
    ∃ w, (n, w) ∈ c.installed ∧ w.current = x ∧ c.installsOf n = [w] := by
  obtain ⟨j, r, hcalled', hanswers⟩ := hs.answered n reply hreturned
  obtain ⟨rfl, rfl⟩ : i = j ∧ .update x = r := by
    simpa using hcalled.symm.trans hcalled'
  have hinstalled : n ∈ c.installed.map Prod.fst := by
    cases reply with
    | done => exact hanswers hx
    | saw w => exact hanswers.elim
  obtain ⟨⟨m, w⟩, hmem, heq⟩ := List.mem_map.mp hinstalled
  obtain rfl : m = n := heq
  obtain ⟨k, hauthor⟩ := hs.author m w hmem
  obtain ⟨-, rfl⟩ : i = k ∧ x = w.current := by simpa using hcalled.symm.trans hauthor
  refine ⟨w, hmem, rfl, ?_⟩
  rw [Config.installsOf, filter_of_nodup hs.once hmem]
  rfl

/-- If no other call updates with its sample, no other window has it as the current one. -/
theorem Sound.filter_chain_eq (hs : Sound c) {w : Window} (hmem : (n, w) ∈ c.installed)
    (honly : ∀ j m, c.called[m]? = some (j, .update w.current) → m = n) :
    (c.chain.tail.filter fun v => v.current == w.current) = [w] := by
  have hsame : ∀ install ∈ c.installed,
      (install.2.current == w.current) = (install.1 == n) := by
    rintro ⟨m, v⟩ hinstall
    obtain ⟨j, hauthor⟩ := hs.author m v hinstall
    obtain ⟨k, hauthor'⟩ := hs.author n w hmem
    rw [Bool.eq_iff_iff, beq_iff_eq, beq_iff_eq]
    constructor
    · intro heq
      rw [heq] at hauthor
      exact honly j m hauthor
    · rintro rfl
      obtain ⟨-, hcurrent⟩ : j = k ∧ v.current = w.current := by
        simpa using hauthor.symm.trans hauthor'
      exact hcurrent
  have hfilter : (c.installed.filter fun install => install.2.current == w.current) = [(n, w)] := by
    rw [List.filter_congr hsame, filter_of_nodup hs.once hmem]
  rw [Config.chain, List.tail_cons, List.filter_map]
  exact congrArg (List.map Prod.snd) hfilter

end Update

/-- **No update is lost, and no look sees a torn window.** Take a window that is shared among any
threads, and anything that can become of it. The windows that were ever installed begin with the
all-zero one, and each of them has as its previous sample the current one of the window before it;
no unreadable sample is in any of them. Each update that has returned, of a readable sample, has
installed exactly one window, which has that sample as the current one; so exactly one window has,
if no other update is called with it. Nothing else is installed: each window was installed by an
update that was called with its current sample. What a look has returned is one of these windows.
The window that is installed is the one that a single thread would have got from the samples, in the
order in which they were installed. -/
theorem updates_are_linked [DecidableEq ι] {c : Config ι} (h : Reachable c) :
    c.chain.head? = some ⟨⟨0, 0, 0⟩, ⟨0, 0, 0⟩⟩ ∧
    (c.chain.IsChain fun w next => next.previous = w.current) ∧
    (∀ w ∈ c.chain, w.previous.isUnreadable = false ∧ w.current.isUnreadable = false) ∧
    (∀ i n x reply, c.called[n]? = some (i, .update x) → x.isUnreadable = false →
      (n, reply) ∈ c.returned →
      ∃ w, c.installsOf n = [w] ∧ w.current = x ∧
        ((∀ j m, c.called[m]? = some (j, .update x) → m = n) →
          (c.chain.tail.filter fun v => v.current == x) = [w])) ∧
    (∀ n w, (n, w) ∈ c.installed → c.installsOf n = [w] ∧
      ∃ i, c.called[n]? = some (i, .update w.current)) ∧
    (∀ n w, (n, .saw w) ∈ c.returned → w ∈ c.chain) ∧
    c.cell.window = Window.initial.advanceAll (c.installed.map (·.2.current)) := by
  have hs := sound_of_reachable h
  refine ⟨rfl, hs.linked.isChain, ?_, ?_, ?_, ?_, hs.linked.eq_advanceAll⟩
  · intro w hw
    exact ⟨(hs.linked.isReadable w hw).previous, (hs.linked.isReadable w hw).current⟩
  · intro i n x reply hcalled hx hreturned
    obtain ⟨w, hmem, rfl, hinstalls⟩ := hs.installsOf_eq hcalled hx hreturned
    exact ⟨w, hinstalls, rfl, hs.filter_chain_eq hmem⟩
  · intro n w hmem
    refine ⟨?_, hs.author n w hmem⟩
    rw [Config.installsOf, filter_of_nodup hs.once hmem]
    rfl
  · intro n w hreturned
    obtain ⟨i, r, -, hanswers⟩ := hs.answered n (.saw w) hreturned
    cases r with
    | update x => exact hanswers.elim
    | look => exact hanswers

/-- Two updates load the same window. The second one installs first, so the first one starts over; a
look that has loaded the window between them returns it behind both. -/
theorem updates_are_linked_of_race :
    let x : Sample := ⟨1, 1, 2⟩
    let y : Sample := ⟨2, 2, 4⟩
    ∃ c : Config (Fin 3), Reachable c ∧
      c.returned = [(1, .done), (0, .done), (2, .saw ⟨.origin, y⟩)] ∧
      c.chain = [.initial, ⟨.origin, y⟩, ⟨y, x⟩] ∧
      (∃ w, c.installsOf 0 = [w] ∧ w.current = x) ∧
      ⟨.origin, y⟩ ∈ c.chain ∧ c.cell.window = Window.initial.advanceAll [y, x] := by
  intro x y
  have h : Reachable (.create (Fin 3)) := .refl
  replace h := h.tail (.begins 0 (.update x) rfl)
  replace h := h.tail (.begins 1 (.update y) rfl)
  replace h := h.tail (.goes 0 (n := 0) rfl (.start x rfl))
  replace h := h.tail (.goes 0 (n := 0) rfl (.load x))
  replace h := h.tail (.goes 0 (n := 0) rfl (.compute x _))
  replace h := h.tail (.goes 1 (n := 1) rfl (.start y rfl))
  replace h := h.tail (.goes 1 (n := 1) rfl (.load y))
  replace h := h.tail (.goes 1 (n := 1) rfl (.compute y _))
  replace h := h.tail (.installs 1 (n := 1) rfl (.install y _ _ rfl))
  replace h := h.tail (.begins 2 .look rfl)
  replace h := h.tail (.goes 2 (n := 2) rfl .see)
  replace h := h.tail (.goes 0 (n := 0) rfl (.retry x _ _ (by decide)))
  replace h := h.tail (.goes 0 (n := 0) rfl (.load x))
  replace h := h.tail (.goes 0 (n := 0) rfl (.compute x _))
  replace h := h.tail (.installs 0 (n := 0) rfl (.install x _ _ rfl))
  replace h := h.tail (.returns 1 (n := 1) rfl (.finish y))
  replace h := h.tail (.returns 0 (n := 0) rfl (.finish x))
  replace h := h.tail (.returns 2 (n := 2) rfl (.tell _))
  obtain ⟨c, h, hcalled, hreturned, hchain, hsamples⟩ : ∃ c : Config (Fin 3), Reachable c ∧
      c.called = [(0, .update x), (1, .update y), (2, .look)] ∧
      c.returned = [(1, .done), (0, .done), (2, .saw ⟨.origin, y⟩)] ∧
      c.chain = [.initial, ⟨.origin, y⟩, ⟨y, x⟩] ∧
      c.installed.map (·.2.current) = [y, x] := ⟨_, h, rfl, rfl, rfl, rfl⟩
  obtain ⟨-, -, -, hupdates, -, hlooks, hwindow⟩ := updates_are_linked h
  obtain ⟨w, hinstalls, hcurrent, -⟩ :=
    hupdates 0 0 x .done (by rw [hcalled]; rfl) rfl (by simp [hreturned])
  refine ⟨c, h, hreturned, hchain, ⟨w, hinstalls, hcurrent⟩, ?_, ?_⟩
  · exact hlooks 2 ⟨.origin, y⟩ (by simp [hreturned])
  · rw [hwindow, hsamples]

end SharedWindow

end IoWatch
