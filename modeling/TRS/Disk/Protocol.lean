import TRS.Disk.Device

/-!
# The driver on the drives

What each function of the driver does on channel `ch` of a machine. The machine is written as
`m.set ch c`, so that the specifications speak about the channel `c` alone.

* `inb_io`, `outb_io`, `inw_io`, `outw_io`: each access is one to the channel.
* `waitBsy_ready`, `waitDrq_data`: the waits end while the channel's busy time does.
* `readSectors_blocks`, `writeSectors_blocks`: the loops move the blocks of a command.
* `readDisk_ok`, `writeDisk_ok`: an accepted request, from the task file to the last word.
* `ataIdentify_absent`, `ataIdentify_present`: the detection of a drive.

The loops are by induction on the blocks that are left, each wait by the poll that it takes.
-/

namespace TRS.Disk
open TRS.Lib

/-! ## Ports -/

/-- The first eight ports of a channel are its registers. -/
lemma ioPort_io {ch reg : Nat} (lt : ch < 2) (lr : reg < 8) :
    ioPort (ioBases ch + reg) = some (ch, reg) := by
  unfold ioPort ioBases
  rcases (by omega : ch = 0 ∨ ch = 1) with rfl | rfl
  · rw [if_pos (by simp only [if_true]; omega)]
    simp
  · rw [if_neg (by simp; omega), if_pos (by simp; omega)]
    simp

/-- The control port is none of them. -/
lemma ioPort_ctrl {ch : Nat} (lt : ch < 2) :
    ioPort (ctrlBases ch) = none ∧ ctrlPort (ctrlBases ch) = some ch := by
  rcases (by omega : ch = 0 ∨ ch = 1) with rfl | rfl
  · decide
  · decide

section Bus
variable {ch : Nat} (lt : ch < 2) (m : Machine) (c : Channel)
include lt

/-- A byte read from a register is read from the channel. -/
lemma inb_io {reg : Nat} (lr : reg < 8) : ataBus.inb (ioBases ch + reg) (m.set ch c) =
    ((c.inb reg).1, m.set ch (c.inb reg).2) := by
  simp only [ataBus, ioPort_io lt lr, Machine.set_same, Machine.set_set]

/-- A byte stored to a register is stored to the channel. -/
lemma outb_io {reg : Nat} (lr : reg < 8) (v : Byte) :
    ataBus.outb (ioBases ch + reg) v (m.set ch c) = m.set ch (c.outb reg v) := by
  simp only [ataBus, ioPort_io lt lr, Machine.set_same, Machine.set_set]

/-- A word read from the data register is read from the channel. -/
lemma inw_io : ataBus.inw (ioBases ch + ataRegData) (m.set ch c) =
    (c.dataWord.1, m.set ch c.dataWord.2) := by
  simp only [ataBus, ioPort_io lt (show ataRegData < 8 by decide), Machine.set_same,
    Machine.set_set]

/-- A word stored to the data register is stored to the channel. -/
lemma outw_io (w : Word) : ataBus.outw w (ioBases ch + ataRegData) (m.set ch c) =
    m.set ch (c.storeWord w) := by
  simp only [ataBus, ioPort_io lt (show ataRegData < 8 by decide), Machine.set_same,
    Machine.set_set]

/-- A store to the control port changes nothing. -/
lemma outb_ctrl (v : Byte) : ataBus.outb (ctrlBases ch) v m = m := by
  simp only [ataBus, (ioPort_ctrl lt).1]

/-- Nor does the delay. -/
lemma delay_ctrl : ataDelay400 ataBus (ctrlBases ch) m = m := by
  simp only [ataDelay400, ataBus, ioPort_ctrl lt]

/-- To read the status is to poll the channel. -/
lemma inb_status : ataBus.inb (ioBases ch + ataRegStatus) (m.set ch c) =
    (c.status, m.set ch c.poll) :=
  inb_io lt m c (by decide)

end Bus

/-! ## Waiting -/

namespace Channel
variable {c : Channel}

lemma poll_of_zero (h : c.busy = 0) : c.poll = c := by
  cases c
  cases h
  rfl

/-- A busy channel reports so and nothing else. -/
lemma status_busy (p : c.selected.isSome) (b : 0 < c.busy) : c.status = ataSrBsy := by
  unfold status
  obtain ⟨d, e⟩ := Option.isSome_iff_exists.mp p
  rw [e]
  exact if_pos b

/-- One that is not does not report it. -/
lemma status_ready (p : c.selected.isSome) (b : c.busy = 0) : c.status &&& ataSrBsy = 0#8 := by
  unfold status
  obtain ⟨d, e⟩ := Option.isSome_iff_exists.mp p
  rw [e]
  dsimp only
  rw [if_neg (by omega)]
  split
  · decide
  · split <;> decide

/-- A channel with data to move reports that. -/
lemma status_data (p : c.selected.isSome) (b : c.busy = 0) (f : c.failed = false)
    (t : c.phase ≠ .idle) : c.status = 0x40#8 ||| ataSrDrq := by
  unfold status
  obtain ⟨d, e⟩ := Option.isSome_iff_exists.mp p
  rw [e]
  dsimp only
  rw [if_neg (by omega), f, if_neg (by decide)]
  split
  · exact absurd ‹_› t
  · rfl

/-- The channel as a successful wait leaves it. -/
def ready (c : Channel) : Channel := { c with busy := 0 }

end Channel

section Waits
variable {ch : Nat} (lt : ch < 2) (m : Machine) {c : Channel}
include lt

/-- A wait on a channel that is not busy ends at once. -/
lemma waitBsy_quiet {n : Nat} (pos : 0 < n) (q : c.status &&& ataSrBsy = 0#8) (b : c.busy = 0) :
    waitBsy ataBus (ioBases ch) n (m.set ch c) = (0, m.set ch c) := by
  obtain ⟨n, rfl⟩ : ∃ k, n = k + 1 := ⟨n - 1, by omega⟩
  rw [waitBsy, inb_status lt, Channel.poll_of_zero b]
  exact if_pos q

/-- A wait that has more polls than the drive needs ends with the drive ready. -/
lemma waitBsy_ready {n : Nat} (p : c.selected.isSome) (b : c.busy < n) :
    waitBsy ataBus (ioBases ch) n (m.set ch c) = (0, m.set ch c.ready) := by
  induction n generalizing c with
  | zero => omega
  | succ n ih =>
    rw [waitBsy, inb_status lt]
    dsimp only
    by_cases z : c.busy = 0
    · rw [if_pos (Channel.status_ready p z), Channel.poll_of_zero z]
      cases c
      cases z
      rfl
    · rw [Channel.status_busy p (by omega), if_neg (by decide)]
      exact ih (c := c.poll) p (by simp only [Channel.poll]; omega)

/-- The wait for `DRQ` ends at once on such a channel. -/
lemma waitDrq_data {n : Nat} (pos : 0 < n) (p : c.selected.isSome) (b : c.busy = 0)
    (f : c.failed = false) (t : c.phase ≠ .idle) :
    waitDrq ataBus (ioBases ch) n (m.set ch c) = (0, m.set ch c) := by
  obtain ⟨n, rfl⟩ : ∃ k, n = k + 1 := ⟨n - 1, by omega⟩
  rw [waitDrq, inb_status lt, Channel.poll_of_zero b, Channel.status_data p b f t]
  dsimp only
  rw [if_neg (by decide), if_pos (by decide)]

end Waits

/-! ## Reading blocks -/

namespace Channel

/-- A channel after `n` transfers: at rest, with the later busy times still to come. -/
def done (c : Channel) (n : Nat) : Channel :=
  { c with phase := .idle, busy := 0, delays := fun i => c.delays (i + n) }

/-- What follows a sector does not depend on the phase that it was in. -/
lemma nextIn_phase (c : Channel) (p : Phase) (bs : List Sector) :
    ({ c with phase := p } : Channel).nextIn bs = c.nextIn bs := by
  cases bs <;> rfl

/-- The last word of a block leads to the next block. -/
lemma dataWord_last {c : Channel} {w : Word} {bs : List Sector} (t : c.phase = .dataIn [w] bs)
    (b : c.busy = 0) : c.dataWord = (w, c.nextIn bs) := by
  simp only [dataWord, t, b, Nat.lt_irrefl, if_false, if_true]

/-- A word of a sector with more to come. -/
lemma dataWord_more {c : Channel} {w v : Word} {ws : List Word} {bs : List Sector}
    (t : c.phase = .dataIn (w :: v :: ws) bs) (b : c.busy = 0) :
    c.dataWord = (w, { c with phase := .dataIn (v :: ws) bs }) := by
  simp only [dataWord, t, b, Nat.lt_irrefl, if_false, reduceCtorEq]

end Channel

section Reads
variable {ch : Nat} (lt : ch < 2) (m : Machine)
include lt

/-- The rest of a sector is read word by word. -/
lemma inWords_block (w : Word) (ws : List Word) {c : Channel} {bs : List Sector}
    (t : c.phase = .dataIn (w :: ws) bs) (b : c.busy = 0) :
    ataBus.inWords (ioBases ch + ataRegData) (w :: ws).length (m.set ch c) =
      (w :: ws, m.set ch (c.nextIn bs)) := by
  induction ws generalizing w c with
  | nil =>
    rw [List.length_singleton, Bus.inWords, inw_io lt, Channel.dataWord_last t b]
    rfl
  | cons v ws ih =>
    rw [List.length_cons, Bus.inWords, inw_io lt, Channel.dataWord_more t b]
    dsimp only
    rw [ih v (c := { c with phase := .dataIn (v :: ws) bs }) rfl b, Channel.nextIn_phase]

/-- A whole sector is read. -/
lemma inWords_sector (s : Sector) (bs : List Sector) {c : Channel}
    (t : c.phase = .dataIn s.words bs) (b : c.busy = 0) :
    ataBus.inWords (ioBases ch + ataRegData) 256 (m.set ch c) =
      (s.words, m.set ch (c.nextIn bs)) := by
  obtain ⟨words, length⟩ := s
  cases words with
  | nil => cases length
  | cons w ws =>
    rw [← length]
    exact inWords_block lt m w ws t b

/-- The loop of `read_disk` reads all the blocks of a transfer. -/
lemma readSectors_blocks {polls : Nat} (bs : List Sector) {c : Channel} (p : c.selected.isSome)
    (b : c.busy = 0) (f : c.failed = false) (bound : ∀ n, c.delays n < polls) :
    readSectors ataBus polls (ioBases ch) (ctrlBases ch) bs.length (m.set ch (c.nextIn bs)) =
      (0, bs.flatMap Sector.words, m.set ch (c.done bs.length)) := by
  induction bs generalizing c with
  | nil =>
    cases c
    cases b
    rfl
  | cons s bs ih =>
    have pos : 0 < polls := Nat.zero_lt_of_lt (bound 0)
    have wait := waitBsy_ready lt m (c := c.nextIn (s :: bs)) (n := polls) p (bound 0)
    have drq := waitDrq_data lt m (c := (c.nextIn (s :: bs)).ready) pos p rfl f
      (by simp [Channel.nextIn, Channel.enter, Channel.ready])
    have block := inWords_sector lt m s bs (c := (c.nextIn (s :: bs)).ready) rfl rfl
    have rest := ih (c := (c.nextIn (s :: bs)).ready) p rfl f (fun n => bound (n + 1))
    unfold readSectors
    simp only [List.length_cons, ataWaitBsy, ataWaitDrq, wait, drq, block, ne_eq,
      not_true_eq_false, if_false, delay_ctrl lt, rest]
    rfl

end Reads

/-! ## Writing blocks -/

namespace Channel

/-- A word of a sector with more to come is kept. -/
lemma storeWord_more {c : Channel} {d : Drive} {block : List Word} {lba left : Nat} (w : Word)
    (e : c.selected = some d) (t : c.phase = .dataOut block lba left) (b : c.busy = 0)
    (more : (block ++ [w]).length ≠ 256) :
    c.storeWord w = { c with phase := .dataOut (block ++ [w]) lba left } := by
  simp only [storeWord, e, t, b, Nat.lt_irrefl, if_false, more, dite_false]

/-- The last word of a sector writes it. -/
lemma storeWord_last {c : Channel} {d : Drive} {block : List Word} {lba left : Nat} (w : Word)
    (e : c.selected = some d) (t : c.phase = .dataOut block lba left) (b : c.busy = 0)
    (s : Sector) (full : s.words = block ++ [w]) :
    c.storeWord w = (c.setSelected (d.write lba s)).nextOut (lba + 1) (left - 1) := by
  have len : (block ++ [w]).length = 256 := full ▸ s.length
  have es : (⟨block ++ [w], len⟩ : Sector) = s := by cases s; cases full; rfl
  simp only [storeWord, e, t, b, Nat.lt_irrefl, if_false, len, dite_true, es]

lemma setSelected_selected (c : Channel) (d : Drive) :
    (c.setSelected d).selected = some d := if_pos rfl

lemma setSelected_self {c : Channel} {d : Drive} (e : c.selected = some d) :
    c.setSelected d = c := by
  have same : (fun i => if i = c.regs.sel then some d else c.drives i) = c.drives := by
    funext i
    by_cases h : i = c.regs.sel
    · rw [if_pos h, h]
      exact e.symm
    · rw [if_neg h]
  rw [setSelected, same]

lemma setSelected_setSelected (c : Channel) (d d' : Drive) :
    (c.setSelected d).setSelected d' = c.setSelected d' := by
  have same : (fun i => if i = c.regs.sel then some d'
      else if i = c.regs.sel then some d else c.drives i) =
      fun i => if i = c.regs.sel then some d' else c.drives i := by
    funext i
    by_cases h : i = c.regs.sel
    · rw [if_pos h, if_pos h]
    · rw [if_neg h, if_neg h, if_neg h]
  exact congrArg (fun f => { c with drives := f }) same

end Channel

section Writes
variable {ch : Nat} (lt : ch < 2) (m : Machine)
include lt

/-- The rest of a sector is stored word by word. -/
lemma outWords_block (data : Nat → Word) {d : Drive} {lba left : Nat} (s : Sector) (n p : Nat)
    (block : List Word) {c : Channel} (e : c.selected = some d)
    (t : c.phase = .dataOut block lba left) (b : c.busy = 0) (pos : 0 < n)
    (full : s.words = block ++ (List.range n).map fun i => data (p + i)) :
    ataBus.outWords (ioBases ch + ataRegData) data n p (m.set ch c) =
      m.set ch ((c.setSelected (d.write lba s)).nextOut (lba + 1) (left - 1)) := by
  induction n generalizing p c block with
  | zero => omega
  | succ n ih =>
    rw [Bus.outWords, outw_io lt]
    have len := congrArg List.length full
    rw [s.length, List.length_append, List.length_map, List.length_range] at len
    rw [List.range_succ_eq_map, List.map_cons, List.map_map, Nat.add_zero] at full
    cases n with
    | zero => rw [Channel.storeWord_last (data p) e t b s full, Bus.outWords]
    | succ n =>
      rw [Channel.storeWord_more (data p) e t b (by simp; omega)]
      refine ih (p + 1) (block ++ [data p]) e rfl b (by omega) ?_
      rw [full, List.append_assoc, List.singleton_append]
      refine congrArg (fun ws => block ++ data p :: ws) (List.map_congr_left fun i _ => ?_)
      exact congrArg data (by omega)

/-- The loop of `write_disk` writes all the blocks of a transfer, and leaves the drive at work. -/
lemma writeSectors_blocks {polls : Nat} (data : Nat → Word) (n lba p : Nat) {d : Drive}
    {c : Channel} (e : c.selected = some d) (f : c.failed = false)
    (bound : ∀ n, c.delays n < polls) :
    writeSectors ataBus polls (ioBases ch) (ctrlBases ch) data n p (m.set ch (c.nextOut lba n)) =
      (0, m.set ch
        (((c.setSelected (d.writeBlocks data lba p n)).done n).enter .idle)) := by
  induction n generalizing d lba p c with
  | zero =>
    rw [Drive.writeBlocks, Channel.setSelected_self e]
    rfl
  | succ n ih =>
    have pos : 0 < polls := Nat.zero_lt_of_lt (bound 0)
    let c1 : Channel := (c.nextOut lba (n + 1)).ready
    have some1 : c1.selected = some d := e
    have present : c1.selected.isSome := by rw [some1]; rfl
    have wait : waitBsy ataBus (ioBases ch) polls (m.set ch (c.nextOut lba (n + 1))) =
        (0, m.set ch c1) := waitBsy_ready lt m present (bound 0)
    have drq := waitDrq_data lt m (c := c1) pos present rfl f
      (by simp [c1, Channel.nextOut, Channel.enter, Channel.ready])
    have block := outWords_block lt m data (.of data p) 256 p [] (c := c1) some1 rfl rfl
      (by decide) rfl
    have rest := ih (lba + 1) (p + 256) (d := d.write lba (.of data p))
      (c := c1.setSelected (d.write lba (.of data p))) (Channel.setSelected_selected _ _) f
      (fun n => bound (n + 1))
    unfold writeSectors
    simp only [ataWaitBsy, ataWaitDrq, wait, drq, block, ne_eq, not_true_eq_false, if_false,
      delay_ctrl lt, Nat.add_sub_cancel, rest, Channel.setSelected_setSelected]
    rfl

end Writes

/-! ## Calls -/

/-- The disk is drive `dr` of channel `ch`. -/
structure DiskT.At (disk : DiskT) (ch dr : Nat) : Prop where
  io : disk.ioBase = ioBases ch
  ctrl : disk.ctrlBase = ctrlBases ch
  drive : disk.drive = BitVec.ofNat 8 dr

/-- A channel between two calls. -/
structure Channel.Rest (polls : Nat) (c : Channel) : Prop where
  idle : c.phase = .idle
  ready : c.busy = 0
  bounded : ∀ n, c.delays n < polls
  quiet : (∃ dr < 2, (c.drives dr).isSome) → c.status &&& ataSrBsy = 0#8

namespace Channel
variable {polls : Nat} {c : Channel}

/-- A channel is at rest after a transfer of a drive that is there. -/
lemma done_rest (p : c.selected.isSome) (bound : ∀ n, c.delays n < polls) (n : Nat) :
    (c.done n).Rest polls where
  idle := rfl
  ready := rfl
  bounded i := bound (i + n)
  quiet _ := status_ready (c := c.done n) p rfl

/-- A channel that has been busy once more has made one more transfer. -/
lemma done_enter_ready (c : Channel) (n : Nat) :
    ((c.done n).enter .idle).ready = c.done (n + 1) := by
  have same : (fun i => c.delays (i + 1 + n)) = fun i => c.delays (i + (n + 1)) := by
    funext i
    exact congrArg c.delays (by omega)
  exact congrArg (fun f => { c with phase := .idle, busy := 0, delays := f }) same

/-- The channel with the task file of a data command. -/
def programmed (c : Channel) (disk : DiskT) (lba count : Nat) : Channel :=
  { c with regs := .programmed disk.drive lba count, failed := false, phase := .idle }

end Channel

section Calls
variable {ch dr : Nat} (lt : ch < 2) (ld : dr < 2) (m : Machine) {c : Channel} {disk : DiskT}
include lt

/-- A store to a register of the task file of a channel that is not busy. -/
lemma outb_taskFile (b : c.busy = 0) (r : TaskFile) (reg : Nat) (v : Byte) (lr : reg < 7) :
    ataBus.outb (ioBases ch + reg) v (m.set ch { c with regs := r }) =
      m.set ch { c with regs := r.store reg v } := by
  rw [outb_io lt m _ (by omega)]
  have ne : reg ≠ ataRegCommand := Nat.ne_of_lt lr
  simp only [Channel.outb, b, Nat.lt_irrefl, if_false, ne]

/-- A store to the command register of a channel that is not busy. -/
lemma outb_command (b : c.busy = 0) (cmd : Byte) :
    ataBus.outb (ioBases ch + ataRegCommand) cmd (m.set ch c) = m.set ch (c.command cmd) := by
  rw [outb_io lt m _ (by decide)]
  simp only [Channel.outb, b, Nat.lt_irrefl, if_false, if_true]

/-- `startCommand` programs the task file and starts the command. -/
lemma startCommand_channel (io : disk.ioBase = ioBases ch) (ctrl : disk.ctrlBase = ctrlBases ch)
    (b : c.busy = 0) (lba count : Nat) (cmd : Byte) :
    startCommand ataBus disk lba count cmd (m.set ch c) =
      m.set ch (({ c with regs := .programmed disk.drive lba count } : Channel).command cmd) := by
  have store := fun r reg v lr => outb_taskFile lt m (c := c) b r reg v lr
  have drive := store c.regs ataRegDrive
    (0xE0#8 ||| disk.drive <<< 4 ||| BitVec.ofNat 8 ((lba >>> 24) &&& 0x0F)) (by decide)
  unfold startCommand
  simp only [io, ctrl]
  rw [drive, delay_ctrl lt, store _ _ _ (by decide), store _ _ _ (by decide),
    store _ _ _ (by decide), store _ _ _ (by decide), store _ _ _ (by decide)]
  exact outb_command lt m (c := { c with regs := .programmed disk.drive lba count }) b cmd

end Calls

namespace Channel
variable {c : Channel} {disk : DiskT} {d : Drive} {ch dr : Nat}

/-- The task file of a disk selects its drive. -/
lemma programmed_selected (at_ : disk.At ch dr) (ld : dr < 2) (e : c.drives dr = some d)
    (lba count : Nat) : (c.programmed disk lba count).selected = some d := by
  unfold selected programmed
  rw [at_.drive, TaskFile.programmed_sel ld]
  exact e

/-- The drive decodes the LBA and the count of an accepted request. -/
lemma programmed_decodes (c : Channel) (disk : DiskT) {lba count : Nat} (pos : 0 < count)
    (le : count ≤ 255) (small : lba < 2 ^ 28) :
    (c.programmed disk lba count).regs.lba28 = lba ∧
    (c.programmed disk lba count).blockCount = count := by
  have sc := TaskFile.programmed_secCount disk.drive lba le
  refine ⟨(TaskFile.programmed_lba28 _ _ _).trans (Nat.mod_eq_of_lt small), ?_⟩
  unfold blockCount
  rw [if_neg]
  · exact sc
  · intro z
    have z' : (TaskFile.programmed disk.drive lba count).secCount = 0#8 := z
    rw [z'] at sc
    have : (0#8).toNat = 0 := rfl
    omega

/-- A drive accepts the data command of an accepted request. -/
lemma programmed_inRange (disk : DiskT) {lba count : Nat} (pos : 0 < count) (le : count ≤ 255)
    (fits : lba + count ≤ d.capacity) (small : d.capacity ≤ 2 ^ 28) :
    (c.programmed disk lba count).InRange d := by
  obtain ⟨el, ec⟩ := c.programmed_decodes disk pos le (show lba < 2 ^ 28 by omega)
  exact ⟨TaskFile.programmed_lbaMode _ _ _, by rw [el, ec]; exact fits⟩

/-- The read command starts at the first sector with all of them to come. -/
lemma command_read (at_ : disk.At ch dr) (ld : dr < 2) (e : c.drives dr = some d) {lba count : Nat}
    (pos : 0 < count) (le : count ≤ 255) (fits : lba + count ≤ d.capacity)
    (small : d.capacity ≤ 2 ^ 28) :
    ({ c with regs := .programmed disk.drive lba count } : Channel).command ataCmdReadPio =
      (c.programmed disk lba count).nextIn (d.blocks lba count) := by
  obtain ⟨el, ec⟩ := c.programmed_decodes disk pos le (show lba < 2 ^ 28 by omega)
  have range := programmed_inRange (c := c) disk pos le fits small
  have sel : ({ c with regs := .programmed disk.drive lba count } : Channel).selected = some d :=
    programmed_selected at_ ld e lba count
  have n1 : ¬ ataCmdReadPio = ataCmdIdentify := by decide
  unfold command
  rw [sel]
  dsimp only
  rw [if_neg n1]
  refine (if_pos ⟨rfl, range⟩).trans ?_
  change (c.programmed disk lba count).nextIn (d.blocks (c.programmed disk lba count).regs.lba28
    (c.programmed disk lba count).blockCount) = _
  rw [el, ec]

/-- The write command starts at the first sector with all of them to be stored. -/
lemma command_write (at_ : disk.At ch dr) (ld : dr < 2) (e : c.drives dr = some d) {lba count : Nat}
    (pos : 0 < count) (le : count ≤ 255) (fits : lba + count ≤ d.capacity)
    (small : d.capacity ≤ 2 ^ 28) :
    ({ c with regs := .programmed disk.drive lba count } : Channel).command ataCmdWritePio =
      (c.programmed disk lba count).nextOut lba count := by
  obtain ⟨el, ec⟩ := c.programmed_decodes disk pos le (show lba < 2 ^ 28 by omega)
  have range := programmed_inRange (c := c) disk pos le fits small
  have sel : ({ c with regs := .programmed disk.drive lba count } : Channel).selected = some d :=
    programmed_selected at_ ld e lba count
  have n1 : ¬ ataCmdWritePio = ataCmdIdentify := by decide
  have n2 : ¬ ataCmdWritePio = ataCmdReadPio := by decide
  unfold command
  rw [sel]
  dsimp only
  rw [if_neg n1]
  refine (if_neg (fun h => n2 h.1)).trans ((if_pos ⟨rfl, range⟩).trans ?_)
  change (c.programmed disk lba count).nextOut (c.programmed disk lba count).regs.lba28
    (c.programmed disk lba count).blockCount = _
  rw [el, ec]

/-- A FLUSH command keeps the drive at work for a time. -/
lemma command_flush (e : c.selected = some d) (f : c.failed = false) (t : c.phase = .idle) :
    c.command ataCmdFlush = c.enter .idle := by
  have n1 : ¬ ataCmdFlush = ataCmdIdentify := by decide
  have n2 : ¬ ataCmdFlush = ataCmdReadPio := by decide
  have n3 : ¬ ataCmdFlush = ataCmdWritePio := by decide
  have same : ({ c with failed := false, phase := .idle } : Channel) = c := by
    cases c
    cases f
    cases t
    rfl
  unfold command
  rw [e]
  dsimp only
  rw [same, if_neg n1, if_neg (fun h => n2 h.1), if_neg (fun h => n3 h.1), if_pos rfl]

end Channel

/-- A request that passes its checks, on a disk that is drive `dr` of channel `ch`. -/
structure Accepted (disks : List DiskT) (a : Args) (disk : DiskT) (ch dr : Nat) (d : Drive) :
    Prop where
  lt : ch < 2
  ld : dr < 2
  check : a.check disks = some disk
  place : disk.At ch dr
  capacity : d.capacity = disk.sectors
  small : disk.sectors ≤ 2 ^ 28
  sum : a.lba + a.count < 2 ^ 64

section Accepted
variable {disks : List DiskT} {a : Args} {disk : DiskT} {ch dr : Nat} {d : Drive}

/-- An accepted request lies on the drive. -/
lemma Accepted.fits (h : Accepted disks a disk ch dr d) : a.lba + a.count ≤ d.capacity := by
  have p := (Args.check_eq_some.mp h.check).2
  have := p.fits
  rw [u64_of_lt h.sum] at this
  rw [h.capacity]
  exact this

/-- An accepted `read_disk` stores the sectors of its range in order. -/
theorem readDisk_ok (h : Accepted disks a disk ch dr d) (m : Machine) {polls : Nat} {c : Channel}
    (rest : c.Rest polls) (e : c.drives dr = some d) :
    readDisk ataBus polls disks a (m.set ch c) =
      (0, (d.blocks a.lba a.count).flatMap Sector.words,
        m.set ch ((c.programmed disk a.lba a.count).done a.count)) := by
  have p := (Args.check_eq_some.mp h.check).2
  have pos : 0 < polls := Nat.zero_lt_of_lt (rest.bounded 0)
  have quiet := rest.quiet ⟨dr, h.ld, by rw [e]; rfl⟩
  have wait := waitBsy_quiet h.lt m pos quiet rest.ready
  have start := startCommand_channel h.lt m h.place.io h.place.ctrl rest.ready a.lba a.count
    ataCmdReadPio
  rw [Channel.command_read h.place h.ld e p.pos p.le h.fits (h.capacity ▸ h.small)] at start
  have present : (c.programmed disk a.lba a.count).selected.isSome := by
    rw [Channel.programmed_selected h.place h.ld e]
    rfl
  have blocks := readSectors_blocks h.lt m (d.blocks a.lba a.count)
    (c := c.programmed disk a.lba a.count) present rest.ready rfl rest.bounded
  have length : (d.blocks a.lba a.count).length = a.count := by simp [Drive.blocks]
  rw [length] at blocks
  unfold readDisk
  simp only [h.check, h.place.io, h.place.ctrl, ataWaitBsy, wait, ne_eq, not_true_eq_false,
    if_false, start, blocks]

/-- An accepted `write_disk` stores the words of its buffer in the sectors of its range. -/
theorem writeDisk_ok (h : Accepted disks a disk ch dr d) (m : Machine) {polls : Nat} {c : Channel}
    (rest : c.Rest polls) (e : c.drives dr = some d) (data : Nat → Word) :
    writeDisk ataBus polls disks a data (m.set ch c) =
      (0, m.set ch (((c.programmed disk a.lba a.count).setSelected
        (d.writeBlocks data a.lba 0 a.count)).done (a.count + 2))) := by
  have p := (Args.check_eq_some.mp h.check).2
  have pos : 0 < polls := Nat.zero_lt_of_lt (rest.bounded 0)
  have quiet := rest.quiet ⟨dr, h.ld, by rw [e]; rfl⟩
  have wait := waitBsy_quiet h.lt m pos quiet rest.ready
  have start := startCommand_channel h.lt m h.place.io h.place.ctrl rest.ready a.lba a.count
    ataCmdWritePio
  rw [Channel.command_write h.place h.ld e p.pos p.le h.fits (h.capacity ▸ h.small)] at start
  have sel := Channel.programmed_selected (c := c) h.place h.ld e a.lba a.count
  have blocks := writeSectors_blocks h.lt m data a.count a.lba 0 sel rfl rest.bounded
  let c1 := (c.programmed disk a.lba a.count).setSelected (d.writeBlocks data a.lba 0 a.count)
  have sel1 : c1.selected = some (d.writeBlocks data a.lba 0 a.count) :=
    Channel.setSelected_selected _ _
  have flush := Channel.command_flush (c := c1.done (a.count + 1)) sel1 rfl rfl
  have wait1 := waitBsy_ready h.lt m (c := (c1.done a.count).enter .idle) (n := polls)
    (by rw [show ((c1.done a.count).enter .idle).selected = c1.selected from rfl, sel1]; rfl)
    (rest.bounded (0 + a.count))
  have wait2 := waitBsy_ready h.lt m (c := (c1.done (a.count + 1)).enter .idle) (n := polls)
    (by rw [show ((c1.done (a.count + 1)).enter .idle).selected = c1.selected from rfl, sel1]; rfl)
    (rest.bounded (0 + (a.count + 1)))
  rw [Channel.done_enter_ready] at wait1 wait2
  have out := outb_command h.lt m (c := c1.done (a.count + 1)) rfl ataCmdFlush
  rw [flush] at out
  unfold writeDisk
  simp only [h.check, h.place.io, h.place.ctrl, ataWaitBsy, wait, ne_eq, not_true_eq_false,
    if_false, start, blocks]
  rw [show (c.programmed disk a.lba a.count).setSelected (d.writeBlocks data a.lba 0 a.count) = c1
    from rfl]
  simp only [wait1, out, wait2, not_true_eq_false, if_false]

end Accepted

/-! ## Identification -/

/-- A channel that no command is running on. -/
structure Channel.Idle (polls : Nat) (c : Channel) : Prop where
  idle : c.phase = .idle
  ready : c.busy = 0
  bounded : ∀ n, c.delays n < polls
  floats : c.floating = 0x00#8 ∨ c.floating = 0xFF#8

/-- The registers as `ata_identify` leaves them. -/
def TaskFile.identify (drive : Byte) : TaskFile := ⟨0#8, 0#8, 0#8, 0#8, 0xA0#8 ||| drive <<< 4⟩

/-- The task file of `IDENTIFY` selects the drive. -/
lemma TaskFile.identify_sel {dr : Nat} (ld : dr < 2) :
    (TaskFile.identify (BitVec.ofNat 8 dr)).sel = dr := by
  rcases (by omega : dr = 0 ∨ dr = 1) with rfl | rfl
  · rfl
  · rfl

section Identify
variable {ch dr : Nat} (lt : ch < 2) (ld : dr < 2) (m : Machine) {c : Channel} {polls : Nat}
include lt

/-- `startIdentify` selects the drive and starts the command. -/
lemma startIdentify_channel (dr : Nat) (b : c.busy = 0) :
    startIdentify ataBus (ioBases ch) (ctrlBases ch) (BitVec.ofNat 8 dr) (m.set ch c) =
      m.set ch (({ c with regs := .identify (BitVec.ofNat 8 dr) } : Channel).command
        ataCmdIdentify) := by
  have store := fun r reg v lr => outb_taskFile lt m (c := c) b r reg v lr
  have drive := store c.regs ataRegDrive (0xA0#8 ||| BitVec.ofNat 8 dr <<< 4) (by decide)
  unfold startIdentify
  simp only [outb_ctrl lt, delay_ctrl lt]
  rw [drive, store _ _ _ (by decide), store _ _ _ (by decide), store _ _ _ (by decide),
    store _ _ _ (by decide)]
  exact outb_command lt m (c := { c with regs := .identify (BitVec.ofNat 8 dr) }) b ataCmdIdentify

include ld

/-- `ata_identify` on a missing drive fails. -/
lemma ataIdentify_absent (h : c.Idle polls) (e : c.drives dr = none) (out : DiskT) :
    ataIdentify ataBus polls (ioBases ch) (ctrlBases ch) (BitVec.ofNat 8 dr) out (m.set ch c) =
      (-1, out, m.set ch { c with regs := .identify (BitVec.ofNat 8 dr) }) := by
  let c1 : Channel := { c with regs := .identify (BitVec.ofNat 8 dr) }
  have sel : c1.selected = none := by
    unfold Channel.selected
    rw [TaskFile.identify_sel ld]
    exact e
  have start := startIdentify_channel lt m dr h.ready
  rw [show ({ c with regs := .identify (BitVec.ofNat 8 dr) } : Channel) = c1 from rfl,
    show c1.command ataCmdIdentify = c1 by unfold Channel.command; rw [sel]] at start
  have status : c1.status = 0x00#8 ∨ c1.status = 0xFF#8 := by
    unfold Channel.status
    rw [sel]
    dsimp only
    split
    · exact .inl rfl
    · exact h.floats
  unfold ataIdentify identifyBlock
  simp only [start, inb_status lt, status, if_true, Channel.poll_of_zero (c := c1) h.ready]
  rfl

/-- `IDENTIFY` on a drive gives its words. -/
lemma identifyBlock_present (h : c.Idle polls) {d : Drive} (e : c.drives dr = some d) :
    identifyBlock ataBus polls (ioBases ch) (ctrlBases ch) (BitVec.ofNat 8 dr) (m.set ch c) =
      (0, d.ident.words, m.set ch (({ c with
        regs := .identify (BitVec.ofNat 8 dr), failed := false } : Channel).done 1)) := by
  let c1 : Channel :=
    { c with regs := .identify (BitVec.ofNat 8 dr), failed := false, phase := .idle }
  let c2 : Channel := c1.nextIn [d.ident]
  have sel : c1.selected = some d := by
    unfold Channel.selected
    rw [TaskFile.identify_sel ld]
    exact e
  have sel' : ({ c with regs := .identify (BitVec.ofNat 8 dr) } : Channel).selected = some d := sel
  have start := startIdentify_channel lt m dr h.ready
  rw [show ({ c with regs := .identify (BitVec.ofNat 8 dr) } : Channel).command ataCmdIdentify = c2
    by unfold Channel.command; rw [sel']; exact if_pos rfl] at start
  have present : c2.selected.isSome := by
    rw [show c2.selected = c1.selected from rfl, sel]
    rfl
  have status : ¬ (c2.status = 0x00#8 ∨ c2.status = 0xFF#8) := by
    by_cases b : 0 < c2.busy
    · rw [Channel.status_busy present b]
      decide
    · rw [Channel.status_data present (by omega) rfl (by simp [c2, Channel.nextIn, Channel.enter])]
      decide
  have wait := waitBsy_ready lt m (c := c2.poll) (n := polls) present
    (Nat.lt_of_le_of_lt (Nat.sub_le _ _) (h.bounded 0))
  have drq := waitDrq_data lt m (c := c2.poll.ready) (n := polls)
    (Nat.zero_lt_of_lt (h.bounded 0)) present rfl rfl
    (by simp [c2, Channel.nextIn, Channel.enter, Channel.poll, Channel.ready])
  have words := inWords_sector lt m d.ident [] (c := c2.poll.ready) rfl rfl
  have lba1 := inb_io lt m c2.poll.ready (show ataRegLba1 < 8 by decide)
  have lba2 := inb_io lt m c2.poll.ready (show ataRegLba2 < 8 by decide)
  have zero1 : c2.poll.ready.inb ataRegLba1 = (0#8, c2.poll.ready) := rfl
  have zero2 : c2.poll.ready.inb ataRegLba2 = (0#8, c2.poll.ready) := rfl
  rw [zero1] at lba1
  rw [zero2] at lba2
  unfold identifyBlock
  simp only [start, inb_status lt, status, if_false, ataWaitBsy, wait, ataWaitDrq, drq, words, lba1,
    lba2, ne_eq, not_true_eq_false]
  rfl

/-- `ata_identify` on a drive notes its sectors, up to the largest number of them. -/
lemma ataIdentify_present (h : c.Idle polls) {d : Drive} (e : c.drives dr = some d) (out : DiskT) :
    ataIdentify ataBus polls (ioBases ch) (ctrlBases ch) (BitVec.ofNat 8 dr) out (m.set ch c) =
      ((if d.capacity = 0 then -1 else 0),
        (if d.capacity = 0 then out
          else { out with sectors := min d.capacity ataLba28Max, present := 1 }),
        m.set ch (({ c with
          regs := .identify (BitVec.ofNat 8 dr), failed := false } : Channel).done 1)) := by
  unfold ataIdentify
  rw [identifyBlock_present lt ld m h e]
  dsimp only
  rw [if_neg (by decide)]
  by_cases z : d.capacity = 0
  · rw [if_pos z, if_pos z]
    exact if_pos z
  · have z' : ¬ reportedSectors d.ident.words = 0 := z
    have clamp : (if reportedSectors d.ident.words > ataLba28Max then ataLba28Max
        else reportedSectors d.ident.words) = min d.capacity ataLba28Max := by
      change (if d.capacity > ataLba28Max then ataLba28Max else d.capacity) = _
      split <;> omega
    rw [if_neg z, if_neg z, if_neg z', clamp]

end Identify

end TRS.Disk
