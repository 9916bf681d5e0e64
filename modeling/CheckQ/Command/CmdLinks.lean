import CheckQ.Command.CmdList

/-!
# Additions at both ends of a command list

A command list read backwards is a command list: exchanging the two links of every node and
the two sentinels turns `cmd_list_add` into `cmd_list_add_head` and a walk along `next` into a
walk along `prev`.  So what is known of the one end is known of the other.
-/

namespace CheckQ

/-! ### Walking along the links -/

/-- The nodes from one address on, following one of the links, up to the node `stop`. -/
def walkFrom (link : CmdT → Option ℕ) (l : CmdList) (stop : ℕ) : ℕ → Option ℕ → Outcome (List ℕ)
  | 0, cmd => if cmd = some stop then .ret [] else .spin
  | fuel + 1, cmd =>
      if cmd = some stop then .ret []
      else do
        let p ← deref cmd
        let c ← l.node p
        let ps ← walkFrom link l stop fuel (link c)
        return p :: ps

/-- The nodes that a walk along `next` from `get_first_cmd` to the tail comes to. -/
def walkNext (l : CmdList) : Outcome (List ℕ) := do
  let cmd ← getFirstCmd l
  walkFrom CmdT.next l l.tail l.ncmd cmd

/-- The nodes that a walk along `prev` from the tail to the head comes to. -/
def walkPrev (l : CmdList) : Outcome (List ℕ) := do
  let tail ← l.node l.tail
  walkFrom CmdT.prev l l.head l.ncmd tail.prev

lemma walkFrom_eq {l : CmdList} {p stop : ℕ} {ps : List ℕ}
    (hlinked : Linked l.next l.prev p ps stop) (hstop : stop ∉ ps)
    (hlive : ∀ r ∈ ps, (l.node? r).isSome) :
    walkFrom CmdT.next l stop ps.length (l.next p) = .ret ps := by
  induction ps generalizing p with
  | nil =>
      rw [hlinked.1]
      simp [walkFrom]
  | cons r ps ih =>
      rw [List.mem_cons, not_or] at hstop
      obtain ⟨hnext, -, hrest⟩ := hlinked
      obtain ⟨c, hc⟩ := Option.isSome_iff_exists.1 (hlive r (by simp))
      have hcn : c.next = l.next r := by rw [CmdList.next, hc, Option.bind_some]
      have hne : some r ≠ some stop := fun heq => hstop.1 (Option.some.inj heq).symm
      rw [hnext, List.length_cons, walkFrom, if_neg hne]
      simp only [deref, Outcome.ret_bind, CmdList.node_eq hc, hcn,
        ih hrest hstop.2 fun x hx => hlive x (List.mem_cons_of_mem _ hx)]
      rfl

lemma CmdListInv.length_eq {ps : List ℕ} {cmds : List UInt32} {l : CmdList}
    (h : CmdListInv ps cmds l) : l.ncmd = ps.length := by
  have hlen := congrArg List.length h.types
  rw [List.length_map, List.length_map] at hlen
  rw [h.ncmd_eq, hlen]

lemma walkNext_eq {ps : List ℕ} {cmds : List UInt32} {l : CmdList} (h : CmdListInv ps cmds l) :
    walkNext l = .ret ps := by
  obtain ⟨c, hc⟩ := Option.isSome_iff_exists.1 (h.live l.head (by simp))
  have hnext : c.next = l.next l.head := by rw [CmdList.next, hc, Option.bind_some]
  simp only [walkNext, getFirstCmd, CmdList.node_eq hc, Outcome.ret_bind, Outcome.pure_eq, hnext,
    h.length_eq]
  exact walkFrom_eq h.linked (fun hm => h.tail_notMem (List.mem_cons_of_mem _ hm))
    fun r hr => h.live r (by simp [hr])

/-! ### The list read backwards -/

/-- The node with its links exchanged. -/
def CmdT.flip (c : CmdT) : CmdT := { c with next := c.prev, prev := c.next }

/-- The list with the links of its nodes and its sentinels exchanged. -/
def CmdList.flip (l : CmdList) : CmdList :=
  { l with nodes := l.nodes.map (Option.map CmdT.flip), head := l.tail, tail := l.head }

namespace CmdList

variable {l : CmdList}

@[simp] lemma flip_flip (l : CmdList) : l.flip.flip = l := by
  have hid : Option.map CmdT.flip ∘ Option.map CmdT.flip = id := by
    ext1 c
    cases c <;> rfl
  simp [flip, hid]

@[simp] lemma flip_length (l : CmdList) : l.flip.nodes.length = l.nodes.length := by
  simp [flip]

@[simp] lemma node?_flip (l : CmdList) (p : ℕ) : l.flip.node? p = (l.node? p).map CmdT.flip := by
  simp only [node?, flip, List.getElem?_map]
  cases l.nodes[p]? <;> rfl

lemma next_flip (l : CmdList) : l.flip.next = l.prev := by
  ext1 p
  rw [next, prev, node?_flip]
  cases l.node? p <;> rfl

lemma prev_flip (l : CmdList) : l.flip.prev = l.next := by
  rw [← next_flip, flip_flip]

lemma type_flip (l : CmdList) : l.flip.type = l.type := by
  ext1 p
  rw [type, type, node?_flip]
  cases l.node? p <;> rfl

lemma node_flip (l : CmdList) (p : ℕ) :
    l.flip.node p = l.node p >>= fun c => .ret c.flip := by
  rw [node, node, node?_flip]
  cases l.node? p <;> rfl

lemma modify_flip (l : CmdList) (p : ℕ) (f : CmdT → CmdT) :
    l.flip.modify p f = l.modify p (fun c => (f c.flip).flip) >>= fun l => .ret l.flip := by
  rw [modify, modify, node?_flip]
  cases hc : l.node? p with
  | none => rfl
  | some c =>
      simp only [Option.map_some, Outcome.ret_bind, Outcome.ret.injEq, flip, CmdList.mk.injEq,
        and_true, List.map_set]
      rfl

end CmdList

lemma walkFrom_flip (l : CmdList) (stop fuel : ℕ) (cmd : Option ℕ) :
    walkFrom CmdT.prev l stop fuel cmd = walkFrom CmdT.next l.flip stop fuel cmd := by
  induction fuel generalizing cmd with
  | zero => rfl
  | succ fuel ih =>
      rw [walkFrom, walkFrom]
      cases deref cmd with
      | ret p =>
          simp only [Outcome.ret_bind, CmdList.node_flip]
          cases l.node p with
          | ret c =>
              simp only [Outcome.ret_bind, ih]
              rfl
          | spin => rfl
          | abort => rfl
          | fault => rfl
      | spin => rfl
      | abort => rfl
      | fault => rfl

/-- The walk along `prev` is the walk along `next` of the list read backwards. -/
lemma walkPrev_eq (l : CmdList) : walkPrev l = walkNext l.flip := by
  have hhead : l.flip.head = l.tail := rfl
  rw [walkPrev, walkNext, getFirstCmd, CmdList.node_flip, hhead]
  cases l.node l.tail with
  | ret t => exact walkFrom_flip l l.head l.ncmd t.prev
  | spin => rfl
  | abort => rfl
  | fault => rfl

/-- `cmd_list_add_head` is `cmd_list_add` on the list read backwards. -/
lemma cmdListAddHead_flip (l : CmdList) (w : UInt32) :
    cmdListAddHead l.flip (cmdInit w) =
      cmdListAdd l (cmdInit w) >>= fun q => .ret (q.1, q.2.flip) := by
  have hhead : l.flip.head = l.tail := rfl
  rw [cmdListAddHead, cmdListAdd, CmdList.node_flip, hhead]
  cases l.node l.tail with
  | ret t =>
      have hlast : t.flip.next = t.prev := rfl
      -- the list with the new node in it, not yet linked
      obtain ⟨l₁, hl₁⟩ : ∃ l₁, l₁ = CmdList.mk (l.nodes ++
        [some ⟨(cmdInit w).type, some l.tail, t.prev⟩]) l.head l.tail l.ncmd := ⟨_, rfl⟩
      have hnew : CmdList.mk (l.flip.nodes ++ [some ⟨(cmdInit w).type, t.prev, some l.tail⟩])
          l.tail l.flip.tail l.flip.ncmd = l₁.flip := by
        simp [hl₁, CmdList.flip, CmdT.flip]
      simp only [Outcome.ret_bind, CmdList.flip_length, hlast, hnew, ← hl₁]
      cases t.prev with
      | some last =>
          simp only [deref, Outcome.ret_bind, CmdList.modify_flip, CmdT.flip]
          cases CmdList.modify l₁ last fun c => ⟨c.type, some l.nodes.length, c.prev⟩ with
          | ret l₂ =>
              have hhead₂ : l₂.flip.head = l₂.tail := rfl
              simp only [Outcome.ret_bind, CmdList.modify_flip, CmdT.flip, hhead₂]
              cases CmdList.modify l₂ l₂.tail fun c => ⟨c.type, c.next, some l.nodes.length⟩ <;> rfl
          | spin => rfl
          | abort => rfl
          | fault => rfl
      | none => rfl
  | spin => rfl
  | abort => rfl
  | fault => rfl

/-! ### The invariant -/

/-- The nodes of the list are `xs`, each with its type, and the heap has no other node than
these and the sentinels. -/
structure CmdChain (xs : List (ℕ × UInt32)) (l : CmdList) : Prop where
  inv : CmdListInv (xs.map Prod.fst) (xs.map Prod.snd) l
  head_prev : l.prev l.head = none
  tail_next : l.next l.tail = none
  perm : (l.tail :: l.head :: xs.map Prod.fst).Perm (List.range l.nodes.length)

variable {xs : List (ℕ × UInt32)} {l : CmdList}

lemma cmdListInit_chain : CmdChain [] cmdListInit :=
  ⟨cmdListInit_inv, rfl, rfl, by decide⟩

lemma CmdListInv.flip {ps : List ℕ} {cmds : List UInt32} (h : CmdListInv ps cmds l) :
    CmdListInv ps.reverse cmds.reverse l.flip := by
  have hnodup := List.nodup_cons.1 h.nodup
  have htail := h.tail_notMem
  rw [List.mem_cons, not_or] at htail
  refine ⟨?_, ?_, ?_, ?_, ?_, ?_⟩
  · rw [CmdList.next_flip, CmdList.prev_flip]
    exact h.linked.reverse
  · rw [CmdList.type_flip, List.map_reverse, h.types, List.map_reverse]
  · show (l.tail :: ps.reverse).Nodup
    exact List.nodup_cons.2 ⟨by simpa using htail.2, List.nodup_reverse.2 hnodup.2⟩
  · show l.head ∉ l.tail :: ps.reverse
    rw [List.mem_cons, not_or]
    exact ⟨Ne.symm htail.1, by simpa using hnodup.1⟩
  · intro p hp
    rw [CmdList.node?_flip, Option.isSome_map]
    refine h.live p ?_
    change p ∈ l.head :: l.tail :: ps.reverse at hp
    simp only [List.mem_cons, List.mem_reverse] at hp ⊢
    tauto
  · rw [List.length_reverse]
    exact h.ncmd_eq

lemma CmdChain.flip (h : CmdChain xs l) : CmdChain xs.reverse l.flip := by
  refine ⟨?_, ?_, ?_, ?_⟩
  · rw [List.map_reverse, List.map_reverse]
    exact h.inv.flip
  · rw [CmdList.prev_flip]
    exact h.tail_next
  · rw [CmdList.next_flip]
    exact h.head_prev
  · rw [CmdList.flip_length, List.map_reverse]
    show (l.head :: l.tail :: (xs.map Prod.fst).reverse).Perm _
    exact ((List.Perm.swap _ _ _).trans (((List.reverse_perm _).cons _).cons _)).trans h.perm

/-! ### The additions -/

lemma cmdListAdd_length {cmd : CmdT} {r : RetT} {l' : CmdList}
    (h : cmdListAdd l cmd = .ret (r, l')) : l'.nodes.length = l.nodes.length + 1 := by
  have hmodify : ∀ {l l' : CmdList} {p : ℕ} {f : CmdT → CmdT}, l.modify p f = .ret l' →
      l'.nodes.length = l.nodes.length := by
    intro l l' p f hmod
    rw [CmdList.modify] at hmod
    split at hmod
    · cases hmod
    · cases hmod
      simp
  obtain ⟨t, -, h⟩ := Outcome.bind_eq_ret.1 h
  obtain ⟨last, -, h⟩ := Outcome.bind_eq_ret.1 h
  obtain ⟨l₁, h₁, h⟩ := Outcome.bind_eq_ret.1 h
  obtain ⟨l₂, h₂, h⟩ := Outcome.bind_eq_ret.1 h
  obtain ⟨-, rfl⟩ := Prod.mk.inj (Outcome.ret.inj h)
  show l₂.nodes.length = _
  rw [hmodify h₂, hmodify h₁]
  simp

/-- `cmd_list_add` puts the command behind the others. -/
lemma CmdChain.add (h : CmdChain xs l) (w : UInt32) :
    ∃ l', cmdListAdd l (cmdInit w) = .ret (.succeed, l') ∧
      CmdChain (xs ++ [(l.nodes.length, w)]) l' ∧ l'.nodes.length = l.nodes.length + 1 := by
  obtain ⟨l', hrun, happ⟩ := h.inv.add w
  have hlen := cmdListAdd_length hrun
  have hfresh := h.inv.ne_length
  have hmem := List.getLast_mem (List.cons_ne_nil l.head (xs.map Prod.fst))
  refine ⟨l', hrun, ⟨?_, ?_, ?_, ?_⟩, hlen⟩
  · simpa using happ.inv h.inv hfresh
  · have hht : l.head ≠ l.tail := fun heq => h.inv.tail_notMem (heq ▸ List.mem_cons_self)
    rw [happ.prev_eq, happ.head_eq, Function.update_of_ne (hfresh _ (by simp)),
      Function.update_of_ne hht]
    exact h.head_prev
  · have htl : l.tail ≠ (l.head :: xs.map Prod.fst).getLast (List.cons_ne_nil _ _) :=
      fun heq => h.inv.tail_notMem (heq ▸ hmem)
    rw [happ.next_eq, happ.tail_eq, Function.update_of_ne (hfresh _ (by simp)),
      Function.update_of_ne htl]
    exact h.tail_next
  · rw [hlen, List.range_succ, happ.head_eq, happ.tail_eq, List.map_append]
    exact h.perm.append_right _

/-- `cmd_list_add_head` puts the command before the others. -/
lemma CmdChain.addHead (h : CmdChain xs l) (w : UInt32) :
    ∃ l', cmdListAddHead l (cmdInit w) = .ret (.succeed, l') ∧
      CmdChain ((l.nodes.length, w) :: xs) l' ∧ l'.nodes.length = l.nodes.length + 1 := by
  obtain ⟨l', hrun, hchain, hlen⟩ := h.flip.add w
  rw [CmdList.flip_length] at hchain hlen
  refine ⟨l'.flip, ?_, ?_, by rw [CmdList.flip_length, hlen]⟩
  · have hflip := cmdListAddHead_flip l.flip w
    rwa [CmdList.flip_flip, hrun, Outcome.ret_bind] at hflip
  · simpa using hchain.flip

/-! ### The end of a list -/

lemma cmdDestroy_eq {p : ℕ} (h : (l.node? p).isSome) :
    ∃ l', cmdDestroy l p = .ret l' ∧ ∀ x, l'.node? x = if x = p then none else l.node? x := by
  obtain ⟨c, hc⟩ := Option.isSome_iff_exists.1 h
  refine ⟨{ l with nodes := l.nodes.set p none }, by rw [cmdDestroy, hc], fun x => ?_⟩
  rw [CmdList.node?]
  by_cases hx : x = p
  · subst hx
    simp [CmdList.node?_lt hc]
  · rw [if_neg hx, List.getElem?_set_ne (Ne.symm hx), CmdList.node?]

/-- The loop of `cmd_list_destroy` frees a node and goes on with the next one. -/
lemma destroyFrom_live {p : ℕ} (hlive : (l.node? p).isSome) (fuel : ℕ) :
    ∃ l', (∀ x, l'.node? x = if x = p then none else l.node? x) ∧
      (∀ r, l.next p = some r → destroyFrom (fuel + 1) l p =
        destroyFrom fuel l' r >>= fun q => .ret (p :: q.1, q.2)) ∧
      -- the last node is freed after the loop
      (l.next p = none → destroyFrom (fuel + 1) l p = .ret ([p], l')) := by
  obtain ⟨l', hfree, hnode⟩ := cmdDestroy_eq hlive
  obtain ⟨c, hc⟩ := Option.isSome_iff_exists.1 hlive
  have hnext : l.next p = c.next := by rw [CmdList.next, hc, Option.bind_some]
  refine ⟨l', hnode, fun r hr => ?_, fun hr => ?_⟩ <;>
  · rw [hnext] at hr
    simp only [destroyFrom, CmdList.node_eq hc, Outcome.ret_bind, hr, hfree]
    rfl

/-- The part of a list that the loop of `cmd_list_destroy` has still to free: the nodes from `p`
to the last node `q`. -/
structure Unfreed (l : CmdList) (p : ℕ) (rs : List ℕ) (q : ℕ) : Prop where
  linked : Linked l.next l.prev p rs q
  last : l.next q = none
  live : ∀ x ∈ p :: (rs ++ [q]), (l.node? x).isSome
  nodup : (p :: (rs ++ [q])).Nodup

/-- The nodes behind `p` are as they were when `p` has been freed. -/
lemma Unfreed.node?_eq {l₁ : CmdList} {p q : ℕ} {rs : List ℕ} (h : Unfreed l p rs q)
    (hnode : ∀ x, l₁.node? x = if x = p then none else l.node? x) :
    ∀ x ∈ rs ++ [q], l₁.node? x = l.node? x := by
  intro x hx
  rw [hnode, if_neg]
  rintro rfl
  exact (List.nodup_cons.1 h.nodup).1 hx

lemma Unfreed.free {l₁ : CmdList} {p r q : ℕ} {rs : List ℕ} (h : Unfreed l p (r :: rs) q)
    (hnode : ∀ x, l₁.node? x = if x = p then none else l.node? x) : Unfreed l₁ r rs q := by
  obtain ⟨-, -, hrest⟩ := h.linked
  have hsame := h.node?_eq hnode
  refine ⟨?_, ?_, fun x hx => ?_, (List.nodup_cons.1 h.nodup).2⟩
  · refine hrest.congr (fun x hx => ?_) fun x hx => ?_
    · rw [CmdList.next, hsame x (by simp at hx ⊢; tauto), CmdList.next]
    · rw [CmdList.prev, hsame x (List.mem_cons_of_mem _ hx), CmdList.prev]
  · rw [CmdList.next, hsame q (by simp), ← CmdList.next, h.last]
  · rw [hsame x hx]
    exact h.live x (List.mem_cons_of_mem _ hx)

/-- The loop of `cmd_list_destroy`, from a node of the list on. -/
lemma destroyFrom_eq {p q : ℕ} {rs : List ℕ} {fuel : ℕ} (h : Unfreed l p rs q)
    (hfuel : rs.length + 2 ≤ fuel) :
    ∃ l', destroyFrom fuel l p = .ret (p :: (rs ++ [q]), l') ∧
      ∀ x, l'.node? x = if x ∈ p :: (rs ++ [q]) then none else l.node? x := by
  obtain ⟨fuel, rfl⟩ : ∃ n, fuel = n + 2 := ⟨fuel - 2, by omega⟩
  have hp := h.live p (by simp)
  induction rs generalizing p l fuel with
  | nil =>
      obtain ⟨l₁, hnode₁, hfirst, -⟩ := destroyFrom_live hp (fuel + 1)
      have hq₁ : l₁.node? q = l.node? q := h.node?_eq hnode₁ q (by simp)
      have hlive₁ : (l₁.node? q).isSome := by
        rw [hq₁]
        exact h.live q (by simp)
      have hend₁ : l₁.next q = none := by rw [CmdList.next, hq₁, ← CmdList.next, h.last]
      obtain ⟨l₂, hnode₂, -, hlast⟩ := destroyFrom_live hlive₁ fuel
      refine ⟨l₂, by rw [hfirst q h.linked.1, hlast hend₁]; rfl, fun x => ?_⟩
      rw [hnode₂, hnode₁]
      by_cases hxq : x = q
      · simp [hxq]
      · by_cases hxp : x = p
        · simp [hxp]
        · simp [hxq, hxp]
  | cons r rs ih =>
      rw [List.length_cons] at hfuel
      obtain ⟨fuel, rfl⟩ : ∃ n, fuel = n + 1 := ⟨fuel - 1, by omega⟩
      obtain ⟨l₁, hnode₁, hfirst, -⟩ := destroyFrom_live hp (fuel + 2)
      have h₁ := h.free hnode₁
      obtain ⟨l', hrun, hnode⟩ := ih h₁ fuel (by omega) (h₁.live r (by simp))
      refine ⟨l', by rw [hfirst r h.linked.1, hrun]; rfl, fun x => ?_⟩
      rw [hnode, hnode₁]
      by_cases hxp : x = p
      · simp [hxp]
      · simp [hxp]

/-- `cmd_list_destroy` frees the nodes of the list and the sentinels. -/
lemma CmdChain.destroy (h : CmdChain xs l) :
    ∃ freed l', cmdListDestroy l = .ret (freed, l') ∧
      freed = l.head :: (xs.map Prod.fst ++ [l.tail]) ∧
      freed.Perm (List.range l.nodes.length) ∧ ∀ p, l'.node? p = none := by
  have hperm : (l.head :: (xs.map Prod.fst ++ [l.tail])).Perm (List.range l.nodes.length) := by
    rw [← List.cons_append]
    exact (List.perm_append_singleton _ _).trans h.perm
  have hlen := h.inv.length_eq
  have hlive : ∀ x ∈ l.head :: (xs.map Prod.fst ++ [l.tail]), (l.node? x).isSome := by
    intro x hx
    exact h.inv.live x (h.perm.mem_iff.2 (hperm.mem_iff.1 hx))
  have hunfreed : Unfreed l l.head (xs.map Prod.fst) l.tail :=
    ⟨h.inv.linked, h.tail_next, hlive, hperm.nodup_iff.2 List.nodup_range⟩
  obtain ⟨l', hrun, hnode⟩ := destroyFrom_eq hunfreed (Nat.add_le_add_right hlen.ge 2)
  refine ⟨_, l', hrun, rfl, hperm, fun p => ?_⟩
  rw [hnode]
  split
  · rfl
  · rename_i hp
    rw [hperm.mem_iff, List.mem_range, not_lt] at hp
    rw [CmdList.node?, List.getElem?_eq_none hp]
    rfl

/-! ### Sequences of additions -/

/-- A call that adds a command of the type `w`. -/
inductive CmdAdd where
  | tail (w : UInt32)
  | head (w : UInt32)
deriving DecidableEq, Repr

/-- One call on a command list, with a command that `cmd_init` has just made. -/
def cmdAddStep : CmdAdd → CmdList → Outcome (RetT × CmdList)
  | .tail w, l => cmdListAdd l (cmdInit w)
  | .head w, l => cmdListAddHead l (cmdInit w)

/-- The commands that are added at the head, in the order of the calls; the node of the `i`-th
call is at the address `first + i`. -/
def headAdds (ops : List CmdAdd) (first : ℕ) : List (ℕ × UInt32) :=
  (ops.zipIdx first).filterMap fun
    | (.head w, n) => some (n, w)
    | (.tail _, _) => none

/-- The commands that are added at the tail, in the order of the calls. -/
def tailAdds (ops : List CmdAdd) (first : ℕ) : List (ℕ × UInt32) :=
  (ops.zipIdx first).filterMap fun
    | (.tail w, n) => some (n, w)
    | (.head _, _) => none

/-- One addition to a list. -/
lemma CmdChain.step (op : CmdAdd) (h : CmdChain xs l) :
    ∃ l', cmdAddStep op l = .ret (.succeed, l') ∧
      CmdChain ((headAdds [op] l.nodes.length).reverse ++ xs ++ tailAdds [op] l.nodes.length) l' ∧
      l'.nodes.length = l.nodes.length + 1 := by
  cases op with
  | tail w => simpa [cmdAddStep, headAdds, tailAdds] using h.add w
  | head w => simpa [cmdAddStep, headAdds, tailAdds] using h.addHead w

lemma headAdds_cons (op : CmdAdd) (ops : List CmdAdd) (n : ℕ) :
    headAdds (op :: ops) n = headAdds [op] n ++ headAdds ops (n + 1) := by
  cases op <;> simp [headAdds]

lemma tailAdds_cons (op : CmdAdd) (ops : List CmdAdd) (n : ℕ) :
    tailAdds (op :: ops) n = tailAdds [op] n ++ tailAdds ops (n + 1) := by
  cases op <;> simp [tailAdds]

/-- A sequence of additions to a list. -/
lemma CmdChain.run (ops : List CmdAdd) (h : CmdChain xs l) :
    ∃ l', runOps cmdAddStep ops l = .ret (ops.map fun _ => .succeed, l') ∧
      CmdChain ((headAdds ops l.nodes.length).reverse ++ xs ++ tailAdds ops l.nodes.length) l' ∧
      l'.nodes.length = l.nodes.length + ops.length := by
  induction ops generalizing xs l with
  | nil => exact ⟨l, rfl, by simpa [headAdds, tailAdds] using h, rfl⟩
  | cons op ops ih =>
      obtain ⟨l₁, hadd, hchain₁, hlen₁⟩ := h.step op
      obtain ⟨l', hrun, hchain, hlen⟩ := ih hchain₁
      rw [hlen₁] at hchain hlen
      refine ⟨l', ?_, ?_, by rw [hlen, List.length_cons]; omega⟩
      · simp [runOps, hadd, hrun]
      · rw [headAdds_cons, tailAdds_cons, List.reverse_append]
        simpa only [List.append_assoc] using hchain

/-- **Command lists keep their order and their links.**  After every sequence of additions to a
new list the walk along `next` ends and comes to the added commands, those added at the head in
reverse order before those added at the tail, and `travel_command_list` to their types; the walk
along `prev` comes to the same commands backwards; `ncmd` is their number; and
`cmd_list_destroy` frees each node of the heap, the two sentinels among them, exactly once. -/
theorem cmd_list_order (ops : List CmdAdd) :
    ∃ l xs, xs = (headAdds ops 2).reverse ++ tailAdds ops 2 ∧
      runOps cmdAddStep ops cmdListInit = .ret (ops.map fun _ => .succeed, l) ∧
      walkNext l = .ret (xs.map Prod.fst) ∧
      travelCommandList l = .ret (xs.map fun x => some x.2) ∧
      walkPrev l = .ret (xs.map Prod.fst).reverse ∧
      l.ncmd = ops.length ∧
      ∃ freed l', cmdListDestroy l = .ret (freed, l') ∧
        freed = l.head :: (xs.map Prod.fst ++ [l.tail]) ∧ freed.Nodup ∧
        (∀ p, p ∈ freed ↔ p < l.nodes.length) ∧ ∀ p, l'.node? p = none := by
  obtain ⟨l, hrun, hchain, hlen⟩ := cmdListInit_chain.run ops
  have hinit : cmdListInit.nodes.length = 2 := rfl
  rw [List.append_nil, hinit] at hchain
  rw [hinit] at hlen
  obtain ⟨freed, l', hdestroy, hfreed, hperm, hgone⟩ := hchain.destroy
  refine ⟨l, _, rfl, hrun, walkNext_eq hchain.inv, ?_, ?_, ?_, freed, l', hdestroy, hfreed, ?_, ?_,
    hgone⟩
  · rw [travelCommandList_eq hchain.inv, List.map_map]
    rfl
  · rw [walkPrev_eq, walkNext_eq hchain.inv.flip]
  · have hcount := hchain.perm.length_eq
    rw [List.length_range, hlen, List.length_cons, List.length_cons] at hcount
    rw [hchain.inv.length_eq]
    omega
  · exact hperm.nodup_iff.2 List.nodup_range
  · intro p
    rw [hperm.mem_iff, List.mem_range]

end CheckQ
