import LteMac.Proofs.Downlink.Lineage
import LteMac.Proofs.Downlink.Spectrum
import LteMac.Proofs.Downlink.Tenure
import LteMac.Proofs.Scheduler.Entries
import LteMac.Proofs.Scheduler.Oblivious

/-!
# Paging messages from arrival to broadcast

Every downlink subframe goes through the paging queue in order. A message takes the least number of
the lowest groups left that carries it, or waits; then it blocks none of the messages behind it, and
keeps its place.

What a single message gets depends on the groups that the messages before it took, so the pass is
described by a list of turns, each on what the former ones left (`Paging.Turns`). The description
does not mention how the groups are found: the number of groups is the least one that carries the
message, or there is none.

For a run, the messages that arrived so far are listed in their order of arrival, each with its
fate: it is still unsent, or a certain event sent it (`PagingAccount`). The queue is then the list
of messages whose fate is open, which gives both that none is lost and that none is sent twice. In a
downlink trigger the open fates take their turns, and some of them are sealed (`Settles`).

* `Paging.turns_foldl_send`: a pass over the queue gives each message its `Turn`;
* `PagingAccount.settle`: the fates of the messages of a run, after one more pass;
* `Run.paging_conserved`: every message that arrived waits, or was broadcast once.
-/

namespace LteMac

namespace Paging

/-! ## Fates -/

section Fates

variable {α : Type}

/-- The messages of a list that nothing was sent for. -/
def unsent (fates : List (PagingMessage × Option α)) : List PagingMessage :=
  (fates.filter (·.2.isNone)).map (·.1)

/-- What was sent for the messages of a list. -/
def sentFor (fates : List (PagingMessage × Option α)) : List α := fates.filterMap (·.2)

end Fates

/-! ## One message -/

variable {grid : Grid} {o : Occupancy} {available size n : Nat} {message : PagingMessage}

/-- Whether so many groups carry a message of a given size at the most robust scheme. -/
def Fits (grid : Grid) (size n : Nat) : Prop :=
  size ≤ LinkAdaptation.downlinkBits mcs (n * grid.rbgSize) / 8

/-- `n` is the least number of groups, of those available, that carries a message. -/
structure Least (grid : Grid) (available size n : Nat) : Prop where
  /-- A message needs a group at least. -/
  pos : 1 ≤ n
  /-- There are so many groups. -/
  le : n ≤ available
  /-- They carry the message. -/
  fits : Fits grid size n
  /-- Fewer groups do not. -/
  least : ∀ m, 1 ≤ m → m < n → ¬Fits grid size m

/-- What becomes of a message whose turn it is while the groups of `free` are left. -/
inductive Turn (grid : Grid) (free : List Nat) (message : PagingMessage) :
    Option PagingGrant → Prop
  /-- No number of groups carries it. -/
  | waits (hnone : ∀ n, 1 ≤ n → n ≤ free.length → ¬Fits grid message.size n) :
      Turn grid free message none
  /-- It takes the least number of the lowest groups, in one block that it fits in. -/
  | sent {g : PagingGrant} {n tb : Nat} (hleast : Least grid free.length message.size n)
      (hindex : g.index = message.index) (hgroups : g.grant.bitmap.indices = free.take n)
      (hmcs : g.grant.mcs = [mcs]) (htbs : g.grant.tbs = [tb]) (hcovers : message.size ≤ tb) :
      Turn grid free message (some g)

/-- The groups that a turn takes. -/
def taken (grant : Option PagingGrant) : List Nat := grant.elim [] (·.grant.bitmap.indices)

/-- The messages of a queue take their turns, each on the groups that the ones before it left. -/
inductive Turns (grid : Grid) : List Nat → List (PagingMessage × Option PagingGrant) → Prop
  /-- Nobody is left. -/
  | nil {free : List Nat} : Turns grid free []
  /-- The first message has its turn, and the others share what it leaves. -/
  | cons {free : List Nat} {message : PagingMessage} {grant : Option PagingGrant}
      {rest : List (PagingMessage × Option PagingGrant)} (hturn : Turn grid free message grant)
      (hrest : Turns grid (free.filter (· ∉ taken grant)) rest) :
      Turns grid free ((message, grant) :: rest)

/-- The number of groups that is found is the least one that carries the message. -/
theorem fit?_eq_some_iff : fit? grid available size = some n ↔ Least grid available size n := by
  rw [fit?, List.find?_range'_eq_some, List.mem_range'_1]
  simp only [decide_eq_true_eq, Bool.not_eq_true', decide_eq_false_iff_not]
  constructor
  · rintro ⟨hfits, ⟨hpos, hle⟩, hleast⟩
    exact ⟨hpos, by omega, hfits, hleast⟩
  · rintro ⟨hpos, hle, hfits, hleast⟩
    exact ⟨hfits, ⟨hpos, by omega⟩, hleast⟩

/-- If none is found, no number of groups carries it. -/
theorem not_fits_of_fit? (h : fit? grid available size = none) :
    ∀ n, 1 ≤ n → n ≤ available → ¬Fits grid size n := fun n hpos hle hfits =>
  List.find?_eq_none.1 h n (List.mem_range'_1.2 ⟨hpos, by omega⟩) (decide_eq_true hfits)

/-- Groups that are taken are free no more. -/
theorem freeBlocks_occupy (o : Occupancy) (blocks : List Nat) :
    (o.occupy blocks).freeBlocks = o.freeBlocks.filter (· ∉ blocks) := by
  rw [Occupancy.freeBlocks, Occupancy.size_occupy, Occupancy.freeBlocks, List.filter_filter]
  refine List.filter_congr fun i _ => ?_
  rw [Occupancy.isFree_occupy]
  simp [Bool.and_comm]

/-- A paging grant is stated in full: on no standard grid it exceeds the largest size. -/
theorem tbs_grant (hgrid : grid.downlink ∈ standardBandwidths) {rbgs : List Nat}
    (hle : rbgs.length ≤ grid.rbgCount) :
    (grant grid rbgs).tbs =
      [LinkAdaptation.downlinkBits mcs (rbgs.length * grid.rbgSize) / 8] := by
  have hall : ∀ blocks ≤ 100,
      LinkAdaptation.downlinkBits mcs blocks / 8 ≤ LinkAdaptation.maxBlockBytes := by
    decide +kernel
  have hband : ∀ n ∈ standardBandwidths, LteMac.rbgCount n * LteMac.rbgSize n ≤ 100 := by decide
  have hblocks : rbgs.length * grid.rbgSize ≤ 100 :=
    Nat.le_trans (Nat.mul_le_mul_right _ hle) (hband _ hgrid)
  exact congrArg (fun size => [size]) (Nat.min_eq_left (hall _ hblocks))

/-- A message that is sent takes its turn. -/
theorem turn_grant (hgrid : grid.downlink ∈ standardBandwidths) (hsize : o.size ≤ grid.rbgCount)
    (hleast : Least grid o.freeBlocks.length message.size n) :
    Turn grid o.freeBlocks message
      (some ⟨message.index, grant grid (o.freeBlocks.take n)⟩) := by
  have hlength : (o.freeBlocks.take n).length = n := List.length_take_of_le hleast.le
  have hcount : n ≤ grid.rbgCount := by
    refine Nat.le_trans hleast.le (Nat.le_trans ?_ hsize)
    exact (List.length_filter_le _ _).trans_eq List.length_range
  refine .sent hleast rfl (indices_grant grid (hsize.trans (Grid.rbgCount_le hgrid)) n) rfl
    (tbs_grant hgrid (hlength.trans_le hcount)) ?_
  rw [hlength]
  exact hleast.fits

/-- A pass over the queue gives each message its turn. -/
theorem turns_foldl_send (hgrid : grid.downlink ∈ standardBandwidths) (queue : List PagingMessage)
    (round : Round) (hsize : round.occupancy.size ≤ grid.rbgCount) :
    ∃ turns, turns.map (·.1) = queue ∧ Turns grid round.occupancy.freeBlocks turns ∧
      (queue.foldl (Round.send grid) round).sent = round.sent ++ sentFor turns ∧
      (queue.foldl (Round.send grid) round).waiting = round.waiting ++ unsent turns := by
  -- The messages behind one go on with the round that it leaves.
  induction queue generalizing round with
  | nil => exact ⟨[], rfl, .nil, (List.append_nil _).symm, (List.append_nil _).symm⟩
  | cons message queue ih =>
    rw [List.foldl_cons]
    cases hfit : fit? grid round.occupancy.freeBlocks.length message.size with
    | none =>
      have hsend : round.send grid message =
          { round with waiting := round.waiting ++ [message] } := by simp only [Round.send, hfit]
      obtain ⟨turns, hqueue, hturns, hsent, hwaiting⟩ := ih (round.send grid message)
        (by rwa [hsend])
      rw [hsend] at hturns hsent hwaiting ⊢
      refine ⟨(message, none) :: turns, by rw [List.map_cons, hqueue],
        .cons (.waits (not_fits_of_fit? hfit)) ?_, hsent, ?_⟩
      · simpa [taken] using hturns
      · simpa [unsent] using hwaiting
    | some n =>
      have hleast := fit?_eq_some_iff.1 hfit
      have hturn := turn_grant hgrid hsize hleast
      generalize hg : grant grid (round.occupancy.freeBlocks.take n) = g at hturn
      have hgroups : g.bitmap.indices = round.occupancy.freeBlocks.take n := by
        rw [← hg]
        exact indices_grant grid (hsize.trans (Grid.rbgCount_le hgrid)) n
      have hsend : round.send grid message = { round with
          occupancy := round.occupancy.occupy g.bitmap.indices
          sent := round.sent ++ [⟨message.index, g⟩] } := by
        simp only [Round.send, hfit, hg, hgroups]
      obtain ⟨turns, hqueue, hturns, hsent, hwaiting⟩ := ih (round.send grid message)
        (by rwa [hsend, Occupancy.size_occupy])
      rw [hsend] at hturns hsent hwaiting ⊢
      refine ⟨(message, some ⟨message.index, g⟩) :: turns, by rw [List.map_cons, hqueue],
        .cons hturn ?_, ?_, hwaiting⟩
      · rwa [← freeBlocks_occupy]
      · simpa [sentFor] using hsent

/-! ## The fates of a run -/

/-- A message, with the event that sent it and its grant there, if one did. -/
abbrev Fate := PagingMessage × Option (Nat × PagingGrant)

/-- What event `n` sent for the messages of a list. -/
def sentIn (n : Nat) (fates : List Fate) : List PagingGrant :=
  ((sentFor fates).filter (·.1 = n)).map (·.2)

/-- A sealed fate belongs to one event. -/
theorem sentIn_cons (n : Nat) (message : PagingMessage) (x : Nat × PagingGrant)
    (fates : List Fate) :
    sentIn n ((message, some x) :: fates) =
      if x.1 = n then x.2 :: sentIn n fates else sentIn n fates := by
  by_cases hx : x.1 = n <;> simp [sentIn, sentFor, hx]

/-- From `fates` to `fates'`, the messages that waited took their `turns` in event `n`. Fates that
were sealed before stay as they are. -/
inductive Settles (n : Nat) :
    List Fate → List (PagingMessage × Option PagingGrant) → List Fate → Prop
  /-- Nobody is left. -/
  | nil : Settles n [] [] []
  /-- The message was sent in an earlier event, so it has no turn. -/
  | sealed {message : PagingMessage} {x : Nat × PagingGrant} {fates fates' : List Fate}
      {turns : List (PagingMessage × Option PagingGrant)} (h : Settles n fates turns fates') :
      Settles n ((message, some x) :: fates) turns ((message, some x) :: fates')
  /-- The message waited, so the next turn is its own, in which it is sent or waits on. -/
  | turn {message : PagingMessage} {grant : Option PagingGrant} {fates fates' : List Fate}
      {turns : List (PagingMessage × Option PagingGrant)} (h : Settles n fates turns fates') :
      Settles n ((message, none) :: fates) ((message, grant) :: turns)
        ((message, grant.map (n, ·)) :: fates')

variable {fates fates' : List Fate} {turns : List (PagingMessage × Option PagingGrant)}
  {m k : Nat} {g : PagingGrant}

/-- As many turns as there are open fates settle them. -/
theorem exists_settles (n : Nat) (h : turns.map (·.1) = unsent fates) :
    ∃ fates', Settles n fates turns fates' := by
  induction fates generalizing turns with
  | nil =>
    obtain rfl := List.map_eq_nil_iff.1 h
    exact ⟨[], .nil⟩
  | cons fate fates ih =>
    obtain ⟨message, _ | x⟩ := fate
    · obtain ⟨⟨_, grant⟩, rest, rfl, rfl, hrest⟩ := List.map_eq_cons_iff.1 h
      obtain ⟨fates', h'⟩ := ih hrest
      exact ⟨_, .turn h'⟩
    · obtain ⟨fates', h'⟩ := ih h
      exact ⟨_, .sealed h'⟩

namespace Settles

/-- No message is lost or added. -/
theorem messages (h : Settles n fates turns fates') : fates'.map (·.1) = fates.map (·.1) := by
  induction h with
  | nil => rfl
  | sealed _ ih | turn _ ih => exact congrArg (_ :: ·) ih

/-- Those wait that took no groups in their turn. -/
theorem unsent_eq (h : Settles n fates turns fates') : unsent fates' = unsent turns := by
  induction h with
  | nil => rfl
  | sealed _ ih => exact ih
  | @turn _ grant _ _ _ _ ih =>
    cases grant with
    | none => exact congrArg (_ :: ·) ih
    | some => exact ih

/-- Nothing changes about what other events sent. -/
theorem sentIn_of_ne (h : Settles n fates turns fates') (hm : m ≠ n) :
    sentIn m fates' = sentIn m fates := by
  induction h with
  | nil => rfl
  | sealed _ ih => rw [sentIn_cons, sentIn_cons, ih]
  | @turn _ grant _ _ _ _ ih =>
    cases grant with
    | none => exact ih
    | some => exact (sentIn_cons ..).trans ((if_neg hm.symm).trans ih)

/-- What the event sent is what was sent in its turns. -/
theorem sentIn_self (h : Settles n fates turns fates') (hn : ∀ x ∈ sentFor fates, x.1 ≠ n) :
    sentIn n fates' = sentFor turns := by
  induction h with
  | nil => rfl
  | sealed _ ih =>
    obtain ⟨hx, hn⟩ := List.forall_mem_cons.1 hn
    exact (sentIn_cons ..).trans ((if_neg hx).trans (ih hn))
  | @turn _ grant _ _ _ _ ih =>
    cases grant with
    | none => exact ih hn
    | some g => exact (sentIn_cons ..).trans ((if_pos rfl).trans (congrArg (g :: ·) (ih hn)))

/-- A sealed fate was sealed before, or in one of the turns. -/
theorem getElem? (h : Settles n fates turns fates')
    (hk : fates'[k]? = some (message, some (m, g))) :
    fates[k]? = some (message, some (m, g)) ∨ m = n ∧ (message, some g) ∈ turns := by
  induction h generalizing k with
  | nil => cases hk
  | sealed _ ih =>
    cases k with
    | zero => exact .inl hk
    | succ k => exact ih hk
  | turn _ ih =>
    cases k with
    | zero =>
      simp only [List.getElem?_cons_zero, Option.some.injEq, Prod.mk.injEq,
        Option.map_eq_some_iff] at hk
      obtain ⟨rfl, g', rfl, rfl, rfl⟩ := hk
      exact .inr ⟨rfl, List.mem_cons_self⟩
    | succ k => exact (ih hk).imp_right fun h => ⟨h.1, List.mem_cons_of_mem _ h.2⟩

end Settles

/-- The grant of a message bears its index. -/
theorem Turns.index_eq {free : List Nat} (h : Turns grid free turns) {message : PagingMessage}
    {g : PagingGrant} (hg : (message, some g) ∈ turns) : g.index = message.index := by
  induction h with
  | nil => cases hg
  | cons hturn _ ih =>
    rcases List.mem_cons.1 hg with heq | hg
    · obtain ⟨rfl, rfl⟩ := Prod.mk.inj heq
      cases hturn with
      | sent _ hindex => exact hindex
    · exact ih hg

end Paging

/-! ## Triggers -/

variable {Record : Type}

namespace Event

/-- The paging messages that arrive in an event. -/
def arrivals (e : Event Record) : List PagingMessage :=
  match e.request with
  | .paging messages => messages
  | _ => []

/-- The paging blocks granted in an event. -/
def pages (e : Event Record) : List PagingGrant := e.said.flatMap (·.pages)

/-- The messages that waited before an event took their `turns` in it, on the groups that the reuse
policy offers in the cell, and those that wait after it are in the same order. -/
structure Pages (e : Event Record) (grid : Grid)
    (turns : List (PagingMessage × Option PagingGrant)) : Prop where
  /-- Every message that waited has its turn, in order. -/
  queue : turns.map (·.1) = e.before.downlink.paging
  /-- The turns are taken on the usable groups, from the lowest one on. -/
  order : Paging.Turns grid
    ((List.range grid.rbgCount).filter (flagAt e.before.reuse.downlinkFlags ·)) turns
  /-- What was broadcast is what had its turn. -/
  sent : e.pages = Paging.sentFor turns
  /-- The other messages wait on, in their order. -/
  waiting : e.after.downlink.paging = Paging.unsent turns

end Event

/-- The groups that are free in the beginning are those the reuse policy offers. -/
theorem Occupancy.freeBlocks_ofFlags (n : Nat) (flags : List Bool) :
    (ofFlags n flags).freeBlocks = (List.range n).filter (flagAt flags ·) := by
  rw [freeBlocks, size_ofFlags]
  refine List.filter_congr fun i hi => Bool.eq_iff_iff.2 ?_
  rw [isFree_ofFlags, and_iff_right (List.mem_range.1 hi)]

/-- In a downlink trigger the messages take their turns. -/
theorem DownlinkTrigger.pages_event (policy : Policy Record) (s : SchedulerState Record)
    {grid : Grid} (hgrid : grid.downlink ∈ standardBandwidths) (feedback : List HarqFeedback) :
    ∃ turns, (event policy s grid feedback).Pages grid turns := by
  obtain ⟨turns, hqueue, hturns, hsent, hwaiting⟩ := Paging.turns_foldl_send hgrid
    s.downlink.paging ⟨.ofFlags grid.rbgCount s.reuse.downlinkFlags, [], []⟩
    (Occupancy.size_ofFlags ..).le
  rw [Occupancy.freeBlocks_ofFlags] at hturns
  refine ⟨turns, hqueue, hturns, ?_, hwaiting⟩
  simpa [Event.pages, event, decide_eq, Indication.pages, paged, Paging.sendAll] using hsent

namespace SchedulerState

variable {policy : Policy Record} {s s' : SchedulerState Record} {q : Request}
  {said : List Indication}

/-- An accepted request is a downlink trigger, or broadcasts nothing and lets arrive what it
brings. -/
theorem paging_of_step (h : s.step policy q = .ok (s', said)) :
    (∃ feedback grid, s.grid = some grid ∧
      (⟨s, q, s', said⟩ : Event Record) = DownlinkTrigger.event policy s grid feedback) ∨
    Event.isDownlink ⟨s, q, s', said⟩ = false ∧ (⟨s, q, s', said⟩ : Event Record).pages = [] ∧
      s'.downlink.paging = s.downlink.paging ++ Event.arrivals ⟨s, q, s', said⟩ := by
  cases accepted_of_step h with
  | downlink _ hgrid => exact .inl ⟨_, _, hgrid, rfl⟩
  | paged => exact .inr ⟨rfl, rfl, rfl⟩
  -- Reports are answered with changes of modes, which broadcast nothing.
  | qualityTaken =>
    refine .inr ⟨rfl, ?_, ?_⟩
    · refine List.flatMap_eq_nil_iff.2 fun i hi => ?_
      obtain ⟨_, _, rfl⟩ := learned_says _ i hi
      rfl
    · rw [downlink_learned]
      exact (List.append_nil _).symm
  | @requested rntis =>
    obtain ⟨ues, hues⟩ := exists_foldl_request rntis s
    rw [hues]
    exact .inr ⟨rfl, rfl, (List.append_nil _).symm⟩
  | @controlsTaken controls =>
    obtain ⟨ues, hues⟩ := exists_foldl_takeControl controls s
    rw [hues]
    exact .inr ⟨rfl, rfl, (List.append_nil _).symm⟩
  | _ => exact .inr ⟨rfl, rfl, (List.append_nil _).symm⟩

end SchedulerState

/-! ## Runs -/

/-- The paging messages that arrived in some events. -/
def arrivals (es : List (Event Record)) : List PagingMessage := es.flatMap (·.arrivals)

/-- The messages that arrived in the events `es`, in order, have the given fates: they are in the
queue, or each of them was broadcast by one event that came after its arrival. -/
structure PagingAccount (es : List (Event Record)) (queue : List PagingMessage)
    (fates : List Paging.Fate) : Prop where
  /-- The fates are those of the messages that arrived, in order. -/
  arrived : fates.map (·.1) = arrivals es
  /-- Those without a broadcast are in the queue. -/
  waiting : Paging.unsent fates = queue
  /-- What an event broadcast is what the fates say, no more and no less. -/
  sent : ∀ (n : Nat) (e : Event Record), es[n]? = some e → e.pages = Paging.sentIn n fates
  /-- A broadcast comes after the arrival of its message, and names it. -/
  matched : ∀ (k : Nat) (message : PagingMessage) (n : Nat) (g : PagingGrant),
    fates[k]? = some (message, some (n, g)) →
      n < es.length ∧ k < (arrivals (es.take n)).length ∧ g.index = message.index

namespace PagingAccount

variable {es : List (Event Record)} {e : Event Record} {queue : List PagingMessage}
  {fates : List Paging.Fate}

/-- Nothing has arrived yet. -/
theorem nil : PagingAccount ([] : List (Event Record)) [] [] := ⟨rfl, rfl, by simp, by simp⟩

/-- An entry of a longer list. -/
theorem getElem?_concat_eq_some {α : Type} {xs : List α} {x y : α} {n : Nat} :
    (xs ++ [x])[n]? = some y ↔ xs[n]? = some y ∨ n = xs.length ∧ x = y := by
  rcases Nat.lt_trichotomy n xs.length with hn | rfl | hn
  · rw [List.getElem?_append_left hn]
    exact (or_iff_left fun h => Nat.ne_of_lt hn h.1).symm
  · simp
  · have hout : xs[n]? = none := List.getElem?_eq_none (Nat.le_of_lt hn)
    have hout' : (xs ++ [x])[n]? = none :=
      List.getElem?_eq_none (by rwa [List.length_append, List.length_singleton])
    simp [hout, hout', Nat.ne_of_gt hn]

/-- Messages arrive event by event. -/
theorem arrivals_concat (es : List (Event Record)) (e : Event Record) :
    arrivals (es ++ [e]) = arrivals es ++ e.arrivals := by simp [arrivals]

/-- No message was broadcast by an event to come. -/
theorem past (h : PagingAccount es queue fates) : ∀ x ∈ Paging.sentFor fates, x.1 < es.length := by
  intro x hx
  obtain ⟨⟨message, fate⟩, hmem, rfl⟩ := List.mem_filterMap.1 hx
  obtain ⟨k, hk⟩ := List.mem_iff_getElem?.1 hmem
  exact (h.matched k message x.1 x.2 hk).1

/-- What was broadcast before an event still was so after it. -/
theorem matched_concat (h : PagingAccount es queue fates) (e : Event Record) {k n : Nat}
    {message : PagingMessage} {g : PagingGrant} (hk : fates[k]? = some (message, some (n, g))) :
    n < (es ++ [e]).length ∧ k < (arrivals ((es ++ [e]).take n)).length ∧
      g.index = message.index := by
  obtain ⟨hn, harrived, hindex⟩ := h.matched k message n g hk
  rw [List.take_append_of_le_length (Nat.le_of_lt hn), List.length_append]
  exact ⟨Nat.lt_add_right _ hn, harrived, hindex⟩

/-- An event that broadcasts nothing. -/
theorem arrive (h : PagingAccount es queue fates) (hpages : e.pages = []) :
    PagingAccount (es ++ [e]) (queue ++ e.arrivals) (fates ++ e.arrivals.map (·, none)) := by
  have hsentFor : Paging.sentFor (fates ++ e.arrivals.map (·, none)) = Paging.sentFor fates := by
    simp [Paging.sentFor]
  refine ⟨?_, ?_, fun n e' he' => ?_, fun k message n g hk => ?_⟩
  · rw [List.map_append, h.arrived, arrivals_concat, List.map_map]
    exact congrArg _ (List.map_id _)
  -- The messages that arrive have not been sent, so they wait behind the others.
  · have hunsent : (e.arrivals.map (·, (none : Option (Nat × PagingGrant)))).filter (·.2.isNone) =
        e.arrivals.map (·, none) := List.filter_eq_self.2 (by simp)
    rw [Paging.unsent, List.filter_append, List.map_append, hunsent, List.map_map]
    exact congrArg₂ _ h.waiting (List.map_id _)
  -- Of the last event nothing is recorded, as nothing was sent in it.
  · rw [Paging.sentIn, hsentFor]
    rcases getElem?_concat_eq_some.1 he' with he' | ⟨rfl, rfl⟩
    · exact h.sent n e' he'
    · rw [hpages, List.filter_eq_nil_iff.2, List.map_nil]
      exact fun x hx => by simpa using Nat.ne_of_lt (h.past x hx)
  · rw [List.getElem?_append] at hk
    split at hk
    · exact h.matched_concat e hk
    · simp at hk

/-- An event in which the messages that waited take their turns. -/
theorem settle {grid : Grid} {turns : List (PagingMessage × Option PagingGrant)}
    (h : PagingAccount es e.before.downlink.paging fates) (hpages : e.Pages grid turns)
    (harrivals : e.arrivals = []) :
    ∃ fates', PagingAccount (es ++ [e]) e.after.downlink.paging fates' := by
  obtain ⟨fates', hsettles⟩ :=
    Paging.exists_settles es.length (hpages.queue.trans h.waiting.symm)
  refine ⟨fates', ?_, ?_, fun n e' he' => ?_, fun k message n g hk => ?_⟩
  · rw [hsettles.messages, h.arrived, arrivals_concat, harrivals, List.append_nil]
  · rw [hsettles.unsent_eq, hpages.waiting]
  · rcases getElem?_concat_eq_some.1 he' with he' | ⟨rfl, rfl⟩
    · have hlt : n < es.length := (List.getElem?_eq_some_iff.1 he').1
      rw [hsettles.sentIn_of_ne (Nat.ne_of_lt hlt)]
      exact h.sent n e' he'
    · rw [hsettles.sentIn_self fun x hx => Nat.ne_of_lt (h.past x hx)]
      exact hpages.sent
  · rcases hsettles.getElem? hk with hk | ⟨rfl, hg⟩
    · exact h.matched_concat e hk
    · -- A message that takes its turn now had arrived before.
      have hlength : fates'.length = (arrivals es).length := by
        rw [← h.arrived, ← hsettles.messages, List.length_map]
      have hlt : k < fates'.length := (List.getElem?_eq_some_iff.1 hk).1
      refine ⟨by simp, ?_, hpages.order.index_eq hg⟩
      rwa [List.take_left, ← hlength]

end PagingAccount

variable {policy : Policy Record} {config : SchedulerConfig} {es : List (Event Record)}
  {s s' : SchedulerState Record}

namespace Run

/-- The account holds all along a run. -/
theorem paging_account (h : Run policy config es s) :
    ∃ fates, PagingAccount es s.downlink.paging fates := by
  refine h.invariant (P := fun es s => ∃ fates, PagingAccount es s.downlink.paging fates)
    ⟨[], .nil⟩ fun {_ s _ _ _} hrun hfates hstep => ?_
  obtain ⟨fates, hfates⟩ := hfates
  rcases SchedulerState.paging_of_step hstep with
    ⟨feedback, grid, hgrid, hevent⟩ | ⟨-, hpages, hpaging⟩
  · obtain ⟨turns, hturns⟩ := DownlinkTrigger.pages_event policy s
      (hrun.reachable.invariant.grid grid hgrid).1 feedback
    rw [← hevent] at hturns
    exact hfates.settle hturns (congrArg Event.arrivals hevent)
  · rw [hpaging]
    exact ⟨_, hfates.arrive hpages⟩

/-- Paging messages are conserved. Every message that arrived waits in the queue, in the order of
arrival, or was broadcast once. In each downlink trigger the messages take their turns in that
order: one is broadcast exactly when some number of the groups left at its turn carries it, and
takes the least such number of the lowest groups, in a block that it fits in. -/
theorem paging_conserved (h : Run policy config es s) :
    (∃ fates, PagingAccount es s.downlink.paging fates) ∧
    ∀ e ∈ es, e.isDownlink = true →
      ∃ grid turns, e.before.grid = some grid ∧ e.Pages grid turns := by
  refine ⟨h.paging_account, fun e he hdownlink => ?_⟩
  obtain ⟨n, hn⟩ := List.mem_iff_getElem?.1 he
  obtain ⟨hbefore, hstep⟩ := h.before_of_getElem? hn
  rcases SchedulerState.paging_of_step hstep with
    ⟨feedback, grid, hgrid, hevent⟩ | ⟨hother, -⟩
  · obtain ⟨turns, hturns⟩ := DownlinkTrigger.pages_event policy e.before
      (hbefore.reachable.invariant.grid grid hgrid).1 feedback
    rw [← hevent] at hturns
    exact ⟨grid, turns, hgrid, hturns⟩
  · exact absurd (hdownlink.symm.trans hother) Bool.noConfusion

end Run

/-- On three groups, which carry seven bytes together, one message never fits, and two others only
fit in different subframes. -/
def crowdedPaging : List Request :=
  [.connect true true, .configureCell 6 6, .installReuse (.hard 6 6 ⟨0, 3⟩ ⟨0, 6⟩),
    .paging [⟨0, 100⟩, ⟨1, 3⟩, ⟨2, 4⟩], .paging [⟨3, 2⟩], .downlinkTrigger [], .paging [⟨4, 1⟩]]

/-- Messages pass those that wait in front of them, and lose no place by it. -/
theorem paging_conserved_crowdedPaging :
    ∃ (es : List (Event Throughput)) (s : SchedulerState Throughput), Run .tdBet .default es s ∧
      es.flatMap (fun e => e.pages.map fun g => (g.index, g.grant.bitmap.indices)) =
        [(1, [0, 1]), (3, [2]), (2, [0, 1]), (4, [2])] ∧
      s.downlink.paging = [⟨0, 100⟩] ∧
      (∃ fates, PagingAccount es s.downlink.paging fates) ∧
      ∀ e ∈ es, e.isDownlink = true →
        ∃ grid turns, e.before.grid = some grid ∧ e.Pages grid turns := by
  obtain ⟨es, e, hrun, hstep, hcheck⟩ := Run.of_replay_step .tdBet .default crowdedPaging
    (.downlinkTrigger [])
    (fun es e => (es ++ [e]).flatMap
        (fun e => e.pages.map fun g => (g.index, g.grant.bitmap.indices)) ==
        [(1, [0, 1]), (3, [2]), (2, [0, 1]), (4, [2])] &&
      e.after.downlink.paging == [⟨0, 100⟩]) (by decide +kernel)
  have hrun := hrun.step hstep
  simp only [Bool.and_eq_true, beq_iff_eq] at hcheck
  obtain ⟨hpages, hqueue⟩ := hcheck
  refine ⟨_, e.after, hrun, ?_, hqueue, hrun.paging_conserved⟩
  simpa [Event.pages] using hpages

end LteMac
