import Mathlib.Data.List.Chain
import OpenmrnCue.Automata.Preamble

/-! The table of the automata: `RenderAutomatas` fills it with the offsets modulo 2¹⁶, and
`CreateVarzAndAutomatas` restores the offsets from it. -/

namespace OpenmrnCue.Automata

/-- An `Automata` of the runner: its id and its starting offset. -/
structure RunnerAutomata where
  id : Nat
  startingOffset : Nat
deriving DecidableEq, Repr

namespace Runner

variable {W : Type} (bits : BitObjects W) (code : List Insn)

/-- The loop of `CreateVarzAndAutomatas` over the table.  Each turn reads two bytes of the code. -/
def readTable : Nat → Nat → Nat → Nat → Runner W → Except Stop (List RunnerAutomata × Runner W)
  | 0, _, _, _, _ => .error .outOfBounds
  | fuel + 1, id, lastOfs, lastRawOfs, r => do
    let (low, r) ← r.loadInsn code
    let (high, r) ← r.loadInsn code
    let ofs := low.toNat ||| high.toNat <<< 8
    if ofs = 0 then .ok ([], r)
    else
      let finalOfs :=
        if ofs < lastRawOfs then ((lastOfs >>> 16) <<< 16 + 0x10000) ||| ofs
        else ((lastOfs >>> 16) <<< 16) ||| ofs
      if 255 < id then .error .assertFailed
      else
        let (rest, r) ← readTable fuel (id + 1) finalOfs ofs r
        .ok (⟨id, finalOfs⟩ :: rest, r)

/-- `CreateVarzAndAutomatas` creates these automata, and the run of the preamble leaves this
machine. -/
def Creates (m : Machine W) (automatas : List RunnerAutomata) (m' : Machine W) : Prop :=
  ∃ r ip, readTable code code.length 0 0 0 ⟨0, m⟩ = .ok (automatas, r) ∧
    Runs bits code r (.ok ⟨ip, m'⟩)

end Runner

/-! ## Layout -/

/-- The two bytes of an offset in the table. -/
def tableEntry (offset : Nat) : List Insn :=
  [UInt8.ofNat (offset &&& 0xff), UInt8.ofNat ((offset >>> 8) &&& 0xff)]

/-- The offsets of the bodies, one after the other. -/
def bodyOffsets : Nat → List (List Insn) → List Nat
  | _, [] => []
  | offset, body :: rest => offset :: bodyOffsets (offset + body.length) rest

theorem length_bodyOffsets (offset : Nat) (bodies : List (List Insn)) :
    (bodyOffsets offset bodies).length = bodies.length := by
  induction bodies generalizing offset with
  | nil => rfl
  | cons body rest ih => rw [bodyOffsets, List.length_cons, ih, List.length_cons]

theorem length_flatMap_tableEntry (offsets : List Nat) :
    (offsets.flatMap tableEntry).length = 2 * offsets.length := by
  induction offsets with
  | nil => rfl
  | cons offset offsets ih =>
    rw [List.flatMap_cons, List.length_append, ih, List.length_cons, tableEntry]
    simp only [List.length_cons, List.length_nil]
    omega

/-- The two bytes of an entry are overwritten in place. -/
theorem set_entry (done rest : List Insn) (low high : Insn) :
    ((done ++ 0 :: 0 :: rest).set done.length low).set (done.length + 1) high =
      (done ++ [low, high]) ++ rest := by
  rw [List.set_append_right _ _ (Nat.le_refl _), List.set_append_right _ _ (Nat.le_succ _)]
  simp

theorem renderAutomatas_eq (done tail : List Insn) (bodies : List (List Insn)) :
    renderAutomatas (done ++ List.replicate (2 * bodies.length) 0 ++ tail) done.length bodies =
      (done ++ (bodyOffsets (done.length + 2 * bodies.length + tail.length) bodies).flatMap
          tableEntry ++ tail ++ bodies.flatten,
        bodyOffsets (done.length + 2 * bodies.length + tail.length) bodies) := by
  induction bodies generalizing done tail with
  | nil => simp [renderAutomatas, bodyOffsets]
  | cons body rest ih =>
    have hzeros : done ++ List.replicate (2 * (body :: rest).length) 0 ++ tail ++ body =
        done ++ 0 :: 0 :: (List.replicate (2 * rest.length) 0 ++ (tail ++ body)) := by
      have htwo : 2 * (body :: rest).length = 2 * rest.length + 1 + 1 := by
        rw [List.length_cons]
        omega
      rw [htwo, List.replicate_succ, List.replicate_succ]
      simp only [List.append_assoc, List.cons_append]
    have hlength : (done ++ List.replicate (2 * (body :: rest).length) 0 ++ tail).length =
        done.length + 2 * (body :: rest).length + tail.length := by
      simp only [List.length_append, List.length_replicate]
    have hoffset : done.length + 2 + 2 * rest.length + (tail ++ body).length =
        done.length + 2 * (body :: rest).length + tail.length + body.length := by
      rw [List.length_append, List.length_cons]
      omega
    rw [renderAutomatas]
    simp only [hlength, hzeros, set_entry]
    generalize done.length + 2 * (body :: rest).length + tail.length = offset at hoffset ⊢
    have hrest := ih (done ++ tableEntry offset) (tail ++ body)
    have hdone : (done ++ tableEntry offset).length = done.length + 2 := by
      rw [List.length_append]
      rfl
    rw [hdone, hoffset] at hrest
    have happend : done ++ [UInt8.ofNat (offset &&& 0xff), UInt8.ofNat ((offset >>> 8) &&& 0xff)] ++
        (List.replicate (2 * rest.length) 0 ++ (tail ++ body)) =
        done ++ tableEntry offset ++ List.replicate (2 * rest.length) 0 ++ (tail ++ body) := by
      rw [← List.append_assoc]
      rfl
    rw [happend, hrest]
    simp only [bodyOffsets, List.flatMap_cons, List.flatten_cons, List.append_assoc]

/-! ## Reading the table -/

variable {W : Type} {bits : BitObjects W} {code : List Insn} {ip : Nat} {m : Machine W}

/-- The first two bytes of the table, and the offset that they name. -/
theorem readTable_cons {offset : Nat} {rest : List Insn}
    (hreads : Reads code ip (tableEntry offset ++ rest))
    (fuel id lastOfs lastRawOfs : Nat) :
    Runner.readTable code (fuel + 1) id lastOfs lastRawOfs ⟨ip, m⟩ =
      if offset % 2 ^ 16 = 0 then .ok ([], ⟨ip + 2, m⟩)
      else
        let finalOfs :=
          if offset % 2 ^ 16 < lastRawOfs then
            ((lastOfs >>> 16) <<< 16 + 0x10000) ||| offset % 2 ^ 16
          else ((lastOfs >>> 16) <<< 16) ||| offset % 2 ^ 16
        if 255 < id then .error .assertFailed
        else
          Runner.readTable code fuel (id + 1) finalOfs (offset % 2 ^ 16) ⟨ip + 2, m⟩ >>=
            fun (rest, r) => .ok (⟨id, finalOfs⟩ :: rest, r) := by
  rw [Runner.readTable, loadInsn_of_reads hreads]
  simp only [Except.ok_bind]
  rw [loadInsn_of_reads hreads.tail]
  simp only [Except.ok_bind, globalOfs_fields]

/-- The reader restores an offset that is less than 2¹⁶ after the one before it. -/
theorem finalOfs_eq {last offset : Nat} (hlt : last < offset) (hle : offset < last + 2 ^ 16) :
    (if offset % 2 ^ 16 < last % 2 ^ 16 then
      ((last >>> 16) <<< 16 + 0x10000) ||| offset % 2 ^ 16
    else ((last >>> 16) <<< 16) ||| offset % 2 ^ 16) = offset := by
  have hmod : offset % 2 ^ 16 < 2 ^ 16 := Nat.mod_lt _ (by decide)
  have hadd : (last >>> 16) <<< 16 + 0x10000 = (last >>> 16 + 1) <<< 16 := by
    rw [Nat.shiftLeft_eq, Nat.shiftLeft_eq]
    omega
  rw [hadd, ← Nat.shiftLeft_add_eq_or_of_lt hmod, ← Nat.shiftLeft_add_eq_or_of_lt hmod,
    Nat.shiftLeft_eq, Nat.shiftLeft_eq, Nat.shiftRight_eq_div_pow]
  split <;> omega

/-- The offsets follow each other at less than 2¹⁶ bytes. -/
def Close (offset next : Nat) : Prop := offset < next ∧ next < offset + 2 ^ 16

/-- Where no offset is a multiple of 2¹⁶, the reader restores all of them. -/
theorem readTable_eq {offsets : List Nat} {last id fuel : Nat}
    (hreads : Reads code ip (offsets.flatMap tableEntry ++ [0, 0]))
    (hclose : (last :: offsets).IsChain Close) (hnonzero : ∀ offset ∈ offsets, offset % 2 ^ 16 ≠ 0)
    (hid : id + offsets.length ≤ 256) (hfuel : offsets.length < fuel) :
    Runner.readTable code fuel id last (last % 2 ^ 16) ⟨ip, m⟩ =
      .ok ((offsets.zipIdx id).map fun entry => ⟨entry.2, entry.1⟩,
        ⟨ip + 2 * offsets.length + 2, m⟩) := by
  induction offsets generalizing ip last id fuel with
  | nil =>
    obtain ⟨fuel, rfl⟩ := Nat.exists_eq_succ_of_ne_zero (Nat.ne_of_gt hfuel)
    have hzero : Reads code ip (tableEntry 0 ++ []) := hreads
    rw [readTable_cons hzero, if_pos (Nat.zero_mod _)]
    rfl
  | cons offset offsets ih =>
    obtain ⟨fuel, rfl⟩ := Nat.exists_eq_succ_of_ne_zero (Nat.ne_of_gt (Nat.zero_lt_of_lt hfuel))
    rw [List.flatMap_cons, List.append_assoc] at hreads
    obtain ⟨hfirst, hrest⟩ := List.isChain_cons_cons.mp hclose
    rw [List.length_cons] at hid hfuel ⊢
    have hlater : Runner.readTable code fuel (id + 1) offset (offset % 2 ^ 16) ⟨ip + 2, m⟩ =
        .ok ((offsets.zipIdx (id + 1)).map fun entry => ⟨entry.2, entry.1⟩,
          ⟨ip + 2 + 2 * offsets.length + 2, m⟩) :=
      ih hreads.append_right hrest (fun other hother => hnonzero other (by simp [hother]))
        (by omega) (by omega)
    rw [readTable_cons hreads, if_neg (hnonzero offset (by simp))]
    simp only [finalOfs_eq hfirst.1 hfirst.2]
    rw [if_neg (by omega), hlater]
    simp only [Except.ok_bind, List.zipIdx_cons, List.map_cons]
    congr 3
    omega

/-- An offset that is a multiple of 2¹⁶ ends the table. -/
theorem readTable_short {offsets : List Nat} {last lastRaw id fuel : Nat}
    (hreads : Reads code ip (offsets.flatMap tableEntry))
    (hzero : ∃ offset ∈ offsets, offset % 2 ^ 16 = 0) {automatas : List RunnerAutomata}
    {r : Runner W} (h : Runner.readTable code fuel id last lastRaw ⟨ip, m⟩ = .ok (automatas, r)) :
    automatas.length < offsets.length := by
  induction offsets generalizing ip last lastRaw id fuel automatas with
  | nil => simp at hzero
  | cons offset offsets ih =>
    cases fuel with
    | zero => cases h
    | succ fuel =>
      rw [List.flatMap_cons] at hreads
      rw [readTable_cons hreads] at h
      by_cases hoffset : offset % 2 ^ 16 = 0
      · rw [if_pos hoffset] at h
        cases h
        simp
      · rw [if_neg hoffset] at h
        simp only at h
        obtain ⟨-, h⟩ := Except.guard_eq_ok.mp h
        obtain ⟨⟨rest, r'⟩, hrest, h⟩ := Except.bind_eq_ok.mp h
        cases h
        have hlater : ∃ offset ∈ offsets, offset % 2 ^ 16 = 0 := by
          obtain ⟨other, hmem, hother⟩ := hzero
          rcases List.mem_cons.mp hmem with rfl | hmem
          · exact absurd hother hoffset
          · exact ⟨other, hmem, hother⟩
        have := ih hreads.append_right hlater hrest
        simp only [List.length_cons]
        omega

/-- Where no offset is a multiple of 2¹⁶, the reader does not stop before the end of the table. -/
theorem readTable_end {offsets : List Nat} {last lastRaw id fuel : Nat}
    (hreads : Reads code ip (offsets.flatMap tableEntry ++ [0, 0]))
    (hnonzero : ∀ offset ∈ offsets, offset % 2 ^ 16 ≠ 0) {automatas : List RunnerAutomata}
    {r : Runner W}
    (h : Runner.readTable code fuel id last lastRaw ⟨ip, m⟩ = .ok (automatas, r)) :
    r = ⟨ip + 2 * offsets.length + 2, m⟩ := by
  induction offsets generalizing ip last lastRaw id fuel automatas with
  | nil =>
    cases fuel with
    | zero => cases h
    | succ fuel =>
      have hzero : Reads code ip (tableEntry 0 ++ []) := hreads
      rw [readTable_cons hzero, if_pos (Nat.zero_mod _)] at h
      cases h
      rfl
  | cons offset offsets ih =>
    cases fuel with
    | zero => cases h
    | succ fuel =>
      rw [List.flatMap_cons, List.append_assoc] at hreads
      rw [readTable_cons hreads, if_neg (hnonzero offset (by simp))] at h
      simp only at h
      obtain ⟨-, h⟩ := Except.guard_eq_ok.mp h
      obtain ⟨⟨rest, r'⟩, hrest, h⟩ := Except.bind_eq_ok.mp h
      cases h
      have hlater := ih hreads.append_right
        (fun other hother => hnonzero other (by simp [hother])) hrest
      have hentry : (tableEntry offset).length = 2 := rfl
      rw [hlater, hentry, List.length_cons]
      congr 1
      omega

/-- Each body is at its offset. -/
theorem reads_bodyOffsets {done : List Insn} {bodies : List (List Insn)} {k offset : Nat}
    {body : List Insn} (hbody : bodies[k]? = some body)
    (hoffset : (bodyOffsets done.length bodies)[k]? = some offset) :
    Reads (done ++ bodies.flatten) offset body := by
  induction bodies generalizing done k with
  | nil => simp at hbody
  | cons first rest ih =>
    cases k with
    | zero =>
      cases hbody
      cases hoffset
      exact ⟨rest.flatten, by rw [List.drop_left, List.flatten_cons]⟩
    | succ k =>
      rw [bodyOffsets, ← List.length_append] at hoffset
      rw [List.flatten_cons, ← List.append_assoc]
      exact ih hbody hoffset

/-! ## Boards -/

/-- The body of an automaton in the output. -/
def BodyState.bytes (s : BodyState) : List Insn := render s.ops

/-- What a rendering is made of. -/
structure Rendering.Of (b : Board) (rendering : Rendering) : Prop where
  admitted : ∀ v ∈ b.globalVariables, v.Admitted
  bodies : b.automatas.mapM (fun a => a.rendered b.getId) = some rendering.bodies
  length : rendering.bodies.length = b.automatas.length
  offsets : rendering.offsets =
    bodyOffsets b.preamble.length (rendering.bodies.map BodyState.bytes)
  output : rendering.output = rendering.offsets.flatMap tableEntry ++
    ([0, 0] ++ (renderVariables b.globalVariables b.tableSize ++ [0] ++
      (rendering.bodies.map BodyState.bytes).flatten))

theorem Board.render_eq_some {b : Board} {rendering : Rendering} (h : b.render = some rendering) :
    rendering.Of b := by
  rw [Board.render] at h
  split at h
  · next hadmitted =>
    obtain ⟨bodies, hbodies, h⟩ := Option.bind_eq_some_iff.mp h
    have hlength : bodies.length = b.automatas.length :=
      (Option.forall₂_of_mapM hbodies).length_eq.symm
    have hpreamble : b.preamble =
        [] ++ List.replicate (2 * (bodies.map BodyState.bytes).length) 0 ++
        ([0, 0] ++ (renderVariables b.globalVariables b.tableSize ++ [0])) := by
      rw [Board.preamble, List.length_map, hlength, Board.tableSize, List.replicate_add]
      simp
    have hsize : ([] : List Insn).length + 2 * (bodies.map BodyState.bytes).length +
        ([0, 0] ++ (renderVariables b.globalVariables b.tableSize ++ [0])).length =
        b.preamble.length := by
      rw [hpreamble]
      simp only [List.length_append, List.length_replicate]
    have heq := renderAutomatas_eq []
      ([0, 0] ++ (renderVariables b.globalVariables b.tableSize ++ [0]))
      (bodies.map BodyState.bytes)
    rw [← hpreamble, hsize] at heq
    have hbytes : (bodies.map fun s => Automata.render s.ops) = bodies.map BodyState.bytes := rfl
    rw [hbytes, show (0 : Nat) = ([] : List Insn).length from rfl, heq] at h
    cases h
    refine ⟨hadmitted, hbodies, hlength, rfl, ?_⟩
    simp only [List.nil_append, List.append_assoc]
  · cases h

theorem bodyOffsets_close {last start : Nat} {bodies : List (List Insn)} (hclose : Close last start)
    (hpos : ∀ body ∈ bodies, 0 < body.length) (hsmall : ∀ body ∈ bodies, body.length < 2 ^ 16) :
    (last :: bodyOffsets start bodies).IsChain Close := by
  induction bodies generalizing last start with
  | nil => exact List.isChain_singleton _
  | cons body rest ih =>
    have h1 := hpos body (by simp)
    have h2 := hsmall body (by simp)
    rw [bodyOffsets]
    refine List.isChain_cons_cons.mpr ⟨hclose, ih ⟨by omega, by omega⟩
      (fun other hother => hpos other (by simp [hother]))
      fun other hother => hsmall other (by simp [hother])⟩

theorem BodyState.bytes_pos (s : BodyState) : 0 < s.bytes.length := by
  simp [BodyState.bytes, Automata.render]

namespace Rendering

variable {b : Board} {rendering : Rendering}

/-- The automata of the board: the id is the index, the starting offset that of the body. -/
def automatas (rendering : Rendering) : List RunnerAutomata :=
  rendering.offsets.zipIdx.map fun entry => ⟨entry.2, entry.1⟩

theorem Of.length_offsets (h : rendering.Of b) : rendering.offsets.length = b.automatas.length := by
  rw [h.offsets, length_bodyOffsets, List.length_map, h.length]

theorem Of.reads_table (h : rendering.Of b) :
    Reads rendering.output 0 (rendering.offsets.flatMap tableEntry ++ [0, 0]) := by
  refine ⟨renderVariables b.globalVariables b.tableSize ++ [0] ++
    (rendering.bodies.map BodyState.bytes).flatten, ?_⟩
  rw [List.drop_zero, h.output, List.append_assoc]

theorem Of.reads_variables (h : rendering.Of b) :
    Reads rendering.output b.tableSize
      (renderVariables b.globalVariables b.tableSize ++ [0]) := by
  have hsize : b.tableSize = (rendering.offsets.flatMap tableEntry ++ [0, 0]).length := by
    rw [List.length_append, length_flatMap_tableEntry, h.length_offsets, Board.tableSize]
    rfl
  refine ⟨(rendering.bodies.map BodyState.bytes).flatten, ?_⟩
  rw [h.output, ← List.append_assoc (rendering.offsets.flatMap tableEntry), hsize, List.drop_left]

theorem Of.reads_body (h : rendering.Of b) {k offset : Nat} {s : BodyState}
    (hoffset : rendering.offsets[k]? = some offset) (hbody : rendering.bodies[k]? = some s) :
    Reads rendering.output offset s.bytes := by
  have hlength : b.preamble.length = (rendering.offsets.flatMap tableEntry ++
      ([0, 0] ++ (renderVariables b.globalVariables b.tableSize ++ [0]))).length := by
    simp only [Board.preamble, List.length_append, List.length_replicate,
      length_flatMap_tableEntry, h.length_offsets, Board.tableSize, List.length_cons,
      List.length_nil]
    omega
  have houtput : rendering.output = (rendering.offsets.flatMap tableEntry ++
      ([0, 0] ++ (renderVariables b.globalVariables b.tableSize ++ [0]))) ++
      (rendering.bodies.map BodyState.bytes).flatten := by
    rw [h.output]
    simp only [List.append_assoc]
  have hbytes : (rendering.bodies.map BodyState.bytes)[k]? = some s.bytes := by
    rw [List.getElem?_map, hbody]
    rfl
  rw [h.offsets, hlength] at hoffset
  rw [houtput]
  exact reads_bodyOffsets hbytes hoffset

/-- Where no body starts at a multiple of 2¹⁶, the table is read to its end. -/
theorem Of.readTable_eq {W : Type} {m : Machine W} (h : rendering.Of b)
    (hcount : b.automatas.length ≤ 256) (hpreamble : b.preamble.length < 2 ^ 16)
    (hbodies : ∀ s ∈ rendering.bodies, s.bytes.length < 2 ^ 16)
    (hnonzero : ∀ offset ∈ rendering.offsets, offset % 2 ^ 16 ≠ 0) :
    Runner.readTable rendering.output rendering.output.length 0 0 0 ⟨0, m⟩ =
      .ok (rendering.automatas, ⟨b.tableSize, m⟩) := by
  have hclose : (0 :: rendering.offsets).IsChain Close := by
    rw [h.offsets]
    refine bodyOffsets_close ⟨?_, by omega⟩ ?_ ?_
    · rw [Board.preamble, List.length_append, List.length_append]
      exact Nat.lt_add_left _ Nat.one_pos
    · intro body hbody
      obtain ⟨s, -, rfl⟩ := List.mem_map.mp hbody
      exact s.bytes_pos
    · intro body hbody
      obtain ⟨s, hs, rfl⟩ := List.mem_map.mp hbody
      exact hbodies s hs
  have hlength : rendering.offsets.length < rendering.output.length := by
    rw [h.output, List.length_append, length_flatMap_tableEntry, List.length_append]
    simp only [List.length_cons, List.length_nil]
    omega
  have hid : 0 + rendering.offsets.length ≤ 256 := by
    rw [h.length_offsets]
    omega
  have heq := Automata.readTable_eq (m := m) h.reads_table hclose hnonzero hid hlength
  rw [h.length_offsets, Nat.zero_mod, Nat.zero_add] at heq
  exact heq

end Rendering

variable (bits) in
/-- Where no body starts at a multiple of 2¹⁶, the automata of the board are created. -/
theorem Rendering.Of.creates {b : Board} {rendering : Rendering} (h : rendering.Of b)
    (hcount : b.automatas.length ≤ 256) (hpreamble : b.preamble.length < 2 ^ 16)
    (hbodies : ∀ s ∈ rendering.bodies, s.bytes.length < 2 ^ 16)
    (hnonzero : ∀ offset ∈ rendering.offsets, offset % 2 ^ 16 ≠ 0) :
    ∃ m', Runner.Creates bits rendering.output m rendering.automatas m' := by
  obtain ⟨ip, m', hruns, -⟩ := runs_preamble bits (m := m) h.admitted h.reads_variables
    hpreamble
  exact ⟨m', _, ip, h.readTable_eq hcount hpreamble hbodies hnonzero, hruns⟩

/-- The runner finds every automaton of a board exactly if none of them starts at a multiple of
2¹⁶. -/
theorem creates_automatas_iff {W : Type} (bits : BitObjects W) (m : Machine W) (b : Board)
    (rendering : Rendering) (hrender : b.render = some rendering)
    (hcount : b.automatas.length ≤ 256) (hpreamble : b.preamble.length < 65536)
    (hbodies : ∀ s ∈ rendering.bodies, s.bytes.length < 65536) :
    (∃ m', Runner.Creates bits rendering.output m rendering.automatas m') ↔
      ∀ offset ∈ rendering.offsets, offset % 65536 ≠ 0 := by
  have h := Board.render_eq_some hrender
  constructor
  · rintro ⟨m', r, ip, htable, -⟩ offset hmem hzero
    have hshort := readTable_short h.reads_table.append_left ⟨offset, hmem, hzero⟩ htable
    simp [Rendering.automatas] at hshort
  · exact fun hnonzero => h.creates bits hcount hpreamble hbodies hnonzero

/-- A board with a variable, and an automaton that sets it. -/
def oneAutomaton : Board where
  automatas := [⟨[], [.importVariable 0 ⟨0, 0⟩, .op ⟨[.ifReg0 0], [.actReg1 0]⟩]⟩]
  globalVariables := [.eventBased 0x100 0x101 0 24 0]

theorem oneAutomaton_created : ∃ rendering m', oneAutomaton.render = some rendering ∧
    rendering.automatas = [⟨0, 31⟩] ∧
    Runner.Creates zeroBits rendering.output (Machine.init ()) rendering.automatas m' := by
  obtain ⟨m', h⟩ := (creates_automatas_iff zeroBits (Machine.init ()) oneAutomaton _ rfl (by decide)
    (by decide) (by decide)).mpr (by decide)
  exact ⟨_, m', rfl, rfl, h⟩

/-- An operation without conditions, in two bytes. -/
def upAspectOp {Var Global : Type} : Op Var Global := ⟨[], [.actUpAspect]⟩

/-- Two automata, of which the first one has 32764 operations of two bytes. -/
def alignedBoard : Board where
  automatas := [⟨[], List.replicate 32764 (.op upAspectOp)⟩, ⟨[], [.op upAspectOp]⟩]
  globalVariables := []

theorem execAll_replicate_none (n : Nat) (s : BodyState) :
    s.execAll none (List.replicate n (.op upAspectOp)) = some s := by
  induction n with
  | zero => rfl
  | succ n ih =>
    rw [List.replicate_succ, BodyState.execAll, List.foldlM_cons]
    exact ih

theorem execAll_replicate (getId : GlobalVariable → Option GlobalVariableId) (n : Nat)
    (s : BodyState) :
    s.execAll (some getId) (List.replicate n (.op upAspectOp)) =
      some { s with ops := s.ops ++ List.replicate n upAspectOp } := by
  induction n generalizing s with
  | zero => simp [BodyState.execAll]
  | succ n ih =>
    rw [List.replicate_succ, BodyState.execAll, List.foldlM_cons]
    have hexec : s.exec (some getId) (.op upAspectOp) =
        some { s with ops := s.ops ++ [upAspectOp] } := rfl
    rw [hexec]
    refine (ih _).trans ?_
    rw [List.append_assoc, List.singleton_append, ← List.replicate_succ]

theorem rendered_replicate (getId : GlobalVariable → Option GlobalVariableId) (n : Nat) :
    (Automaton.mk [] (List.replicate n (.op upAspectOp))).rendered getId =
      some { BodyState.init with ops := List.replicate n upAspectOp } := by
  have hprepared : (Automaton.mk [] (List.replicate n (.op upAspectOp))).prepared =
      some BodyState.init := execAll_replicate_none n BodyState.init
  rw [Automaton.rendered, Automaton.start, hprepared]
  exact execAll_replicate getId n BodyState.init

theorem length_render_replicate (n : Nat) :
    (render (List.replicate n upAspectOp)).length = 2 * n + 1 := by
  induction n with
  | zero => rfl
  | succ n ih =>
    have hcons : render (List.replicate (n + 1) upAspectOp) =
        upAspectOp.bytes ++ render (List.replicate n upAspectOp) := by
      simp [render, List.replicate_succ]
    have hbytes : upAspectOp.bytes.length = 2 := rfl
    rw [hcons, List.length_append, ih, hbytes]
    omega

theorem alignedBoard_bodies : alignedBoard.automatas.mapM (fun a => a.rendered alignedBoard.getId) =
    some [{ BodyState.init with ops := List.replicate 32764 upAspectOp },
      { BodyState.init with ops := [upAspectOp] }] := by
  have hsecond := rendered_replicate alignedBoard.getId 1
  rw [alignedBoard, List.mapM_cons, ← alignedBoard, rendered_replicate, List.mapM_cons]
  rw [List.replicate_one] at hsecond
  rw [hsecond]
  rfl

/-- The second automaton starts at offset 65536, which reads as the end of the table. -/
theorem alignedBoard_missed : ∃ rendering, alignedBoard.render = some rendering ∧
    alignedBoard.automatas.length = 2 ∧ alignedBoard.preamble.length < 65536 ∧
    (∀ s ∈ rendering.bodies, s.bytes.length < 65536) ∧ rendering.offsets = [7, 65536] ∧
    ∀ automatas m', Runner.Creates zeroBits rendering.output (Machine.init ()) automatas m' →
      automatas.length < 2 := by
  have hsome : ∃ rendering, alignedBoard.render = some rendering := by
    rw [Board.render, alignedBoard_bodies]
    exact ⟨_, rfl⟩
  obtain ⟨rendering, hrender⟩ := hsome
  have h := Board.render_eq_some hrender
  have hbodies := h.bodies
  rw [alignedBoard_bodies, Option.some.injEq] at hbodies
  have hlength : ({ BodyState.init with ops := List.replicate 32764 upAspectOp } :
      BodyState).bytes.length = 65529 := by
    rw [BodyState.bytes, length_render_replicate]
  have hoffsets : rendering.offsets = [7, 65536] := by
    rw [h.offsets, ← hbodies, List.map_cons, bodyOffsets, hlength]
    rfl
  refine ⟨rendering, hrender, rfl, by decide, ?_, hoffsets, ?_⟩
  · intro s hs
    rw [← hbodies] at hs
    rcases List.mem_cons.mp hs with rfl | hs
    · rw [hlength]
      decide
    · rw [List.mem_singleton.mp hs]
      decide
  · rintro automatas m' ⟨r, ip, htable, -⟩
    have hshort := readTable_short h.reads_table.append_left
      ⟨65536, by rw [hoffsets]; decide, rfl⟩ htable
    rwa [hoffsets] at hshort

end OpenmrnCue.Automata
