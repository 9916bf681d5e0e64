import CheckQ.Lib.Linked
import CheckQ.Mylib.RandomPick
import CheckQ.Mysql.SqlGen

/-!
# Command lists of `command/cq_command.c`

A command list is a doubly linked list between two sentinels.  Its nodes are cells of a heap
and pointers are addresses in it; `my_malloc` appends a cell, so an address is never used
twice, and a cell that has been freed is `none`.  The `type` of a command is a machine word,
and it is never set in the sentinels.  The command bucket is a vector of command lists.
-/

namespace CheckQ

/-- The values of `cmd_type_t`. -/
def CmdType.code : CmdType → UInt32
  | .insert => 1
  | .delete => 2
  | .update => 3
  | .select => 4
  | .create => 5
  | .alterAdd => 6
  | .alterDrop => 7
  | .drop => 8

/-- `cmd`; `none` is a type that has not been set, and the null pointer. -/
structure CmdT where
  type : Option UInt32
  next : Option ℕ
  prev : Option ℕ
deriving DecidableEq, Repr

/-- `cmd_list`, with the heap its nodes are in.  `ncmd` is an `int` that nothing but the two
insertions reads; it is the number here as long as there are fewer than `2 ^ 31` commands.  A list
of `parser_gen_cmd_bucket` has `cols` commands, itself an `int`. -/
structure CmdList where
  nodes : List (Option CmdT)
  head : ℕ
  tail : ℕ
  ncmd : ℕ
deriving DecidableEq, Repr

/-- The node at an address. -/
def CmdList.node? (l : CmdList) (p : ℕ) : Option CmdT := l.nodes[p]?.join

/-- Read the node at an address. -/
def CmdList.node (l : CmdList) (p : ℕ) : Outcome CmdT :=
  match l.node? p with
  | none => .fault
  | some cmd => .ret cmd

/-- Write to the node at an address. -/
def CmdList.modify (l : CmdList) (p : ℕ) (f : CmdT → CmdT) : Outcome CmdList :=
  match l.node? p with
  | none => .fault
  | some cmd => .ret { l with nodes := l.nodes.set p (some (f cmd)) }

/-- A pointer that is followed. -/
def deref (p : Option ℕ) : Outcome ℕ :=
  match p with
  | none => .fault
  | some p => .ret p

/-- `cmd_init`.  The links of the node are set when it is added to a list. -/
def cmdInit (type : UInt32) : CmdT := ⟨some type, none, none⟩

/-- `cmd_list_init`. -/
def cmdListInit : CmdList where
  nodes := [some ⟨none, some 1, none⟩, some ⟨none, none, some 0⟩]
  head := 0
  tail := 1
  ncmd := 0

/-- `cmd_list_add`, for a command that has just been made by `cmd_init`. -/
def cmdListAdd (l : CmdList) (cmd : CmdT) : Outcome (RetT × CmdList) := do
  let pcmd := l.nodes.length
  let ptail ← l.node l.tail
  let l := { l with nodes := l.nodes ++ [some { cmd with prev := ptail.prev, next := some l.tail }] }
  let last ← deref ptail.prev
  let l ← l.modify last fun c => { c with next := some pcmd }
  let l ← l.modify l.tail fun c => { c with prev := some pcmd }
  return (.succeed, { l with ncmd := l.ncmd + 1 })

/-- `cmd_list_add_head`, for a command that has just been made by `cmd_init`. -/
def cmdListAddHead (l : CmdList) (cmd : CmdT) : Outcome (RetT × CmdList) := do
  let pcmd := l.nodes.length
  let phead ← l.node l.head
  let l := { l with nodes := l.nodes ++ [some { cmd with prev := some l.head, next := phead.next }] }
  let first ← deref phead.next
  let l ← l.modify first fun c => { c with prev := some pcmd }
  let l ← l.modify l.head fun c => { c with next := some pcmd }
  return (.succeed, { l with ncmd := l.ncmd + 1 })

/-- `cmd_destroy`. -/
def cmdDestroy (l : CmdList) (p : ℕ) : Outcome CmdList :=
  match l.node? p with
  | none => .fault
  | some _ => .ret { l with nodes := l.nodes.set p none }

/-- The loop of `cmd_list_destroy`: the nodes that are freed from one address on, in order, and
what is left. -/
def destroyFrom : ℕ → CmdList → ℕ → Outcome (List ℕ × CmdList)
  | 0, _, _ => .spin
  | fuel + 1, l, pcmd => do
      let c ← l.node pcmd
      match c.next with
      | some next => do
          let l ← cmdDestroy l pcmd
          let (freed, l) ← destroyFrom fuel l next
          return (pcmd :: freed, l)
      | none => do
          let l ← cmdDestroy l pcmd
          return ([pcmd], l)

/-- `cmd_list_destroy`, for a list of at most `ncmd` commands between the two sentinels. -/
def cmdListDestroy (l : CmdList) : Outcome (List ℕ × CmdList) := destroyFrom (l.ncmd + 2) l l.head

/-- `get_first_cmd`. -/
def getFirstCmd (l : CmdList) : Outcome (Option ℕ) := do
  let head ← l.node l.head
  return head.next

/-- The loop of `travel_command_list`: the types of the commands from one address up to the
tail. -/
def travelFrom (l : CmdList) : ℕ → Option ℕ → Outcome (List (Option UInt32))
  | 0, cmd => if cmd = some l.tail then .ret [] else .spin
  | fuel + 1, cmd =>
      if cmd = some l.tail then .ret []
      else do
        let p ← deref cmd
        let c ← l.node p
        let types ← travelFrom l fuel c.next
        return c.type :: types

/-- The types of the commands that `travel_command_list` comes to, for a list of at most
`ncmd` commands. -/
def travelCommandList (l : CmdList) : Outcome (List (Option UInt32)) := do
  let cmd ← getFirstCmd l
  travelFrom l l.ncmd cmd

/-! ### The list as a sequence -/

/-- The `next` field at an address. -/
def CmdList.next (l : CmdList) (p : ℕ) : Option ℕ := (l.node? p).bind CmdT.next

/-- The `prev` field at an address. -/
def CmdList.prev (l : CmdList) (p : ℕ) : Option ℕ := (l.node? p).bind CmdT.prev

/-- The `type` field at an address. -/
def CmdList.type (l : CmdList) (p : ℕ) : Option UInt32 := (l.node? p).bind CmdT.type

/-- The list consists of the nodes `ps`, with the types `cmds`. -/
structure CmdListInv (ps : List ℕ) (cmds : List UInt32) (l : CmdList) : Prop where
  linked : Linked l.next l.prev l.head ps l.tail
  types : ps.map l.type = cmds.map some
  nodup : (l.head :: ps).Nodup
  tail_notMem : l.tail ∉ l.head :: ps
  live : ∀ p ∈ l.tail :: l.head :: ps, (l.node? p).isSome
  ncmd_eq : l.ncmd = cmds.length

lemma cmdListInit_inv : CmdListInv [] [] cmdListInit := by
  refine ⟨⟨rfl, rfl⟩, rfl, by simp, by decide, by decide, rfl⟩

namespace CmdList

variable {l : CmdList} {p : ℕ}

lemma node?_lt {c : CmdT} (h : l.node? p = some c) : p < l.nodes.length := by
  rw [node?, Option.join_eq_some_iff] at h
  exact (List.getElem?_eq_some_iff.1 h).1

lemma node_eq {c : CmdT} (h : l.node? p = some c) : l.node p = .ret c := by
  rw [node, h]

lemma modify_eq {c : CmdT} (h : l.node? p = some c) (f : CmdT → CmdT) :
    l.modify p f = .ret { l with nodes := l.nodes.set p (some (f c)) } := by
  rw [modify, h]

/-- Reading after a write. -/
lemma node?_set {c : CmdT} (h : p < l.nodes.length) (k : ℕ) (x : ℕ) :
    node? { l with nodes := l.nodes.set p (some c), ncmd := k } x
      = if x = p then some c else l.node? x := by
  rw [node?]
  by_cases hx : x = p
  · subst hx
    simp [h]
  · rw [if_neg hx, List.getElem?_set_ne (Ne.symm hx), node?]

/-- Reading after an allocation. -/
lemma node?_append {c : CmdT} (x : ℕ) :
    node? { l with nodes := l.nodes ++ [some c] } x
      = if x = l.nodes.length then some c else l.node? x := by
  rw [node?]
  rcases lt_trichotomy x l.nodes.length with hlt | rfl | hgt
  · rw [if_neg hlt.ne, List.getElem?_append_left hlt, node?]
  · simp
  · rw [if_neg hgt.ne', node?, List.getElem?_eq_none, List.getElem?_eq_none]
    · omega
    · rw [List.length_append, List.length_singleton]
      omega

end CmdList

/-- The three writes of `cmd_list_add`: the new node, the `next` of the last node and the
`prev` of the tail. -/
lemma cmdListAdd_eq {l : CmdList} {last : ℕ} {t c : CmdT} (w : UInt32)
    (ht : l.node? l.tail = some t) (hprev : t.prev = some last) (hc : l.node? last = some c)
    (htl : l.tail ≠ last) :
    ∃ l', cmdListAdd l (cmdInit w) = .ret (.succeed, l') ∧ l'.head = l.head ∧ l'.tail = l.tail ∧
      l'.ncmd = l.ncmd + 1 ∧ ∀ x, l'.node? x =
        if x = l.tail then some { t with prev := some l.nodes.length }
        else if x = last then some { c with next := some l.nodes.length }
        else if x = l.nodes.length then some ⟨some w, some l.tail, some last⟩
        else l.node? x := by
  have htn : l.tail ≠ l.nodes.length := (CmdList.node?_lt ht).ne
  have hln : last ≠ l.nodes.length := (CmdList.node?_lt hc).ne
  let n := l.nodes.length
  let l₁ : CmdList := { l with nodes := l.nodes ++ [some ⟨some w, some l.tail, some last⟩] }
  let l₂ : CmdList := { l₁ with nodes := l₁.nodes.set last (some { c with next := some n }) }
  let l₃ : CmdList := { l₂ with
    nodes := l₂.nodes.set l.tail (some { t with prev := some n }), ncmd := l.ncmd + 1 }
  have h₁ : ∀ x, l₁.node? x = if x = n then some ⟨some w, some l.tail, some last⟩ else l.node? x :=
    CmdList.node?_append
  have hc₁ : l₁.node? last = some c := by rw [h₁, if_neg hln, hc]
  have h₂ : ∀ x, l₂.node? x = if x = last then some { c with next := some n } else l₁.node? x :=
    CmdList.node?_set (CmdList.node?_lt hc₁) l.ncmd
  have ht₂ : l₂.node? l.tail = some t := by rw [h₂, if_neg htl, h₁, if_neg htn, ht]
  have h₃ : ∀ x, l₃.node? x = if x = l.tail then some { t with prev := some n } else l₂.node? x :=
    CmdList.node?_set (CmdList.node?_lt ht₂) _
  have e₂ : CmdList.modify l₁ last (fun c => { c with next := some n }) = .ret l₂ :=
    CmdList.modify_eq hc₁ _
  have e₃ : CmdList.modify l₂ l.tail (fun c => { c with prev := some n })
      = .ret { l₃ with ncmd := l.ncmd } := CmdList.modify_eq ht₂ _
  refine ⟨l₃, ?_, rfl, rfl, rfl, fun x => by rw [h₃, h₂, h₁]⟩
  simp only [cmdListAdd, CmdList.node_eq ht, Outcome.ret_bind, hprev, deref, cmdInit]
  show (CmdList.modify l₁ last _ >>= _) = _
  rw [e₂, Outcome.ret_bind]
  show (CmdList.modify l₂ l.tail _ >>= _) = _
  rw [e₃]
  rfl

/-- `l'` is `l` with a new node at `n`, of the type `w`, between `last` and the tail. -/
structure Appended (l l' : CmdList) (last n : ℕ) (w : UInt32) : Prop where
  head_eq : l'.head = l.head
  tail_eq : l'.tail = l.tail
  ncmd_eq : l'.ncmd = l.ncmd + 1
  next_eq : l'.next = Function.update (Function.update l.next last (some n)) n (some l.tail)
  prev_eq : l'.prev = Function.update (Function.update l.prev l.tail (some n)) n (some last)
  type_eq : l'.type = Function.update l.type n (some w)
  live : ∀ x, x = n ∨ (l.node? x).isSome → (l'.node? x).isSome

/-- `cmd_list_add` links a new node into the list. -/
lemma cmdListAdd_appended {l : CmdList} {last : ℕ} (w : UInt32) (htail : (l.node? l.tail).isSome)
    (hlast : (l.node? last).isSome) (hprev : l.prev l.tail = some last) (htl : l.tail ≠ last) :
    ∃ l', cmdListAdd l (cmdInit w) = .ret (.succeed, l') ∧
      Appended l l' last l.nodes.length w := by
  obtain ⟨t, ht⟩ := Option.isSome_iff_exists.1 htail
  obtain ⟨c, hc⟩ := Option.isSome_iff_exists.1 hlast
  have htn : l.tail ≠ l.nodes.length := (CmdList.node?_lt ht).ne
  have hln : last ≠ l.nodes.length := (CmdList.node?_lt hc).ne
  rw [CmdList.prev, ht, Option.bind_some] at hprev
  obtain ⟨l', hrun, hhead, htail', hncmd, hnode⟩ := cmdListAdd_eq w ht hprev hc htl
  generalize l.nodes.length = n at htn hln hnode ⊢
  refine ⟨l', hrun, hhead, htail', hncmd, ?_, ?_, ?_, ?_⟩
  · ext1 x
    simp only [CmdList.next, hnode, Function.update_apply]
    by_cases hxn : x = n
    · simp [hxn, htn.symm, hln.symm]
    · by_cases hxl : x = last
      · simp [hxl, htl.symm, hln]
      · by_cases hxt : x = l.tail
        · simp [hxt, htn, htl, ht]
        · simp [hxn, hxl, hxt]
  · ext1 x
    simp only [CmdList.prev, hnode, Function.update_apply]
    by_cases hxn : x = n
    · simp [hxn, htn.symm, hln.symm]
    · by_cases hxt : x = l.tail
      · simp [hxt, htn]
      · by_cases hxl : x = last
        · simp [hxl, htl.symm, hln, hc]
        · simp [hxn, hxl, hxt]
  · ext1 x
    simp only [CmdList.type, hnode, Function.update_apply]
    by_cases hxn : x = n
    · simp [hxn, htn.symm, hln.symm]
    · by_cases hxt : x = l.tail
      · simp [hxt, htn, ht]
      · by_cases hxl : x = last
        · simp [hxl, htl.symm, hln, hc]
        · simp [hxn, hxl, hxt]
  · intro x hx
    rw [hnode]
    split_ifs with h₁ h₂ h₃
    · rfl
    · rfl
    · rfl
    · exact hx.resolve_left h₃

/-- A new node at the end of the list. -/
lemma Appended.inv {ps : List ℕ} {cmds : List UInt32} {l l' : CmdList} {n : ℕ} {w : UInt32}
    (h : CmdListInv ps cmds l)
    (happ : Appended l l' ((l.head :: ps).getLast (List.cons_ne_nil l.head ps)) n w)
    (hfresh : ∀ p ∈ l.tail :: l.head :: ps, p ≠ n) :
    CmdListInv (ps ++ [n]) (cmds ++ [w]) l' := by
  have hnotMem : n ∉ l.head :: ps := fun hp => hfresh n (List.mem_cons_of_mem _ hp) rfl
  have htn : l.tail ≠ n := hfresh _ (by simp)
  refine ⟨?_, ?_, ?_, ?_, ?_, ?_⟩
  · rw [happ.next_eq, happ.prev_eq, happ.head_eq, happ.tail_eq]
    exact h.linked.snoc h.nodup h.tail_notMem hnotMem htn.symm rfl
  · have htype : ∀ x ∈ ps, l'.type x = l.type x := by
      intro x hx
      rw [happ.type_eq, Function.update_of_ne (hfresh x (by simp [hx]))]
    rw [List.map_append, List.map_append, List.map_congr_left htype, h.types]
    simp [happ.type_eq]
  · rw [happ.head_eq, ← List.cons_append, List.nodup_append]
    refine ⟨h.nodup, by simp, ?_⟩
    rintro x hx y hy rfl
    exact hnotMem (List.mem_singleton.1 hy ▸ hx)
  · rw [happ.head_eq, happ.tail_eq, ← List.cons_append, List.mem_append, List.mem_singleton, not_or]
    exact ⟨h.tail_notMem, htn⟩
  · intro p hp
    rw [happ.head_eq, happ.tail_eq, ← List.cons_append, ← List.cons_append, List.mem_append,
      List.mem_singleton] at hp
    rcases hp with hp | hp
    · exact happ.live p (Or.inr (h.live p hp))
    · exact happ.live p (Or.inl hp)
  · rw [happ.ncmd_eq, h.ncmd_eq, List.length_append, List.length_singleton]

/-- The nodes of a list are not the next one that is allocated. -/
lemma CmdListInv.ne_length {ps : List ℕ} {cmds : List UInt32} {l : CmdList}
    (h : CmdListInv ps cmds l) : ∀ p ∈ l.tail :: l.head :: ps, p ≠ l.nodes.length := by
  intro p hp
  obtain ⟨c, hc⟩ := Option.isSome_iff_exists.1 (h.live p hp)
  exact (CmdList.node?_lt hc).ne

/-- `cmd_list_add` links a new node behind the last one. -/
lemma CmdListInv.add {ps : List ℕ} {cmds : List UInt32} {l : CmdList} (h : CmdListInv ps cmds l)
    (w : UInt32) : ∃ l', cmdListAdd l (cmdInit w) = .ret (.succeed, l') ∧
      Appended l l' ((l.head :: ps).getLast (List.cons_ne_nil l.head ps)) l.nodes.length w := by
  have hmem := List.getLast_mem (List.cons_ne_nil l.head ps)
  exact cmdListAdd_appended w (h.live l.tail (by simp))
    (h.live _ (List.mem_cons_of_mem _ hmem)) h.linked.prev_eq
    fun heq => h.tail_notMem (heq ▸ hmem)

/-- `cmd_list_add` puts the command at the end of the list. -/
lemma cmdListAdd_inv {ps : List ℕ} {cmds : List UInt32} {l : CmdList} (h : CmdListInv ps cmds l)
    (w : UInt32) : ∃ l' ps', cmdListAdd l (cmdInit w) = .ret (.succeed, l') ∧
      CmdListInv ps' (cmds ++ [w]) l' := by
  obtain ⟨l', hrun, happ⟩ := h.add w
  exact ⟨l', _, hrun, happ.inv h h.ne_length⟩

/-- Traversing a segment that ends at the tail. -/
lemma travelFrom_eq {l : CmdList} {p : ℕ} {ps : List ℕ} {cmds : List UInt32}
    (hlinked : Linked l.next l.prev p ps l.tail) (htypes : ps.map l.type = cmds.map some)
    (htail : l.tail ∉ ps) (hlive : ∀ r ∈ ps, (l.node? r).isSome) :
    travelFrom l cmds.length (l.next p) = .ret (cmds.map some) := by
  induction ps generalizing p cmds with
  | nil =>
      obtain rfl : cmds = [] := by simpa using htypes.symm
      rw [hlinked.1]
      simp [travelFrom]
  | cons r ps ih =>
      obtain ⟨w, cmds, rfl⟩ : ∃ w cmds', cmds = w :: cmds' := by
        cases cmds with
        | nil => simp at htypes
        | cons w cmds => exact ⟨w, cmds, rfl⟩
      rw [List.map_cons, List.map_cons, List.cons.injEq] at htypes
      rw [List.mem_cons, not_or] at htail
      obtain ⟨hnext, -, hrest⟩ := hlinked
      obtain ⟨c, hc⟩ := Option.isSome_iff_exists.1 (hlive r (by simp))
      have hcn : c.next = l.next r := by rw [CmdList.next, hc, Option.bind_some]
      have hct : c.type = some w := by rw [← htypes.1, CmdList.type, hc, Option.bind_some]
      have hne : some r ≠ some l.tail := fun heq => htail.1 (Option.some.inj heq).symm
      rw [hnext, List.length_cons, travelFrom, if_neg hne]
      simp only [deref, Outcome.ret_bind, CmdList.node_eq hc, hcn, hct,
        ih hrest htypes.2 htail.2 fun x hx => hlive x (List.mem_cons_of_mem _ hx)]
      rfl

/-- `travel_command_list` comes to the commands of the list, in order. -/
lemma travelCommandList_eq {ps : List ℕ} {cmds : List UInt32} {l : CmdList}
    (h : CmdListInv ps cmds l) : travelCommandList l = .ret (cmds.map some) := by
  obtain ⟨c, hc⟩ := Option.isSome_iff_exists.1 (h.live l.head (by simp))
  have hnext : c.next = l.next l.head := by rw [CmdList.next, hc, Option.bind_some]
  simp only [travelCommandList, getFirstCmd, CmdList.node_eq hc, Outcome.ret_bind,
    Outcome.pure_eq, hnext, h.ncmd_eq]
  exact travelFrom_eq h.linked h.types (fun hm => h.tail_notMem (List.mem_cons_of_mem _ hm))
    fun r hr => h.live r (by simp [hr])

/-- A list has one sequence of commands. -/
lemma CmdListInv.unique {ps ps' : List ℕ} {cmds cmds' : List UInt32} {l : CmdList}
    (h : CmdListInv ps cmds l) (h' : CmdListInv ps' cmds' l) : cmds = cmds' := by
  have htravel := (travelCommandList_eq h).symm.trans (travelCommandList_eq h')
  exact List.map_injective_iff.2 (Option.some_injective _) (Outcome.ret.inj htravel)

/-! ### The command bucket -/

/-- `cmd_bucket_init`. -/
def cmdBucketInit : VectorT CmdList := vectorAlloc CmdList

/-- `cmd_bucket_add`. -/
def cmdBucketAdd (bucket : VectorT CmdList) (l : CmdList) : Outcome (RetT × VectorT CmdList) :=
  vectorPushBack bucket l

/-- `get_random_cmd_list`. -/
def getRandomCmdList (bucket : VectorT CmdList) (r : RandStream) :
    Outcome (Fetched CmdList × RandStream) :=
  vectorGetRandom bucket r

end CheckQ
