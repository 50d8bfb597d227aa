import H713.Machine.Run
import H713.Machine.Word
import Mathlib.Algebra.Group.Nat.Defs

/-!
# The shared memory manager

The allocator of the shared memory: a header page, a page table and the pages up to the break.
Requests above 2048 bytes take whole pages, smaller ones a block of a page that is cut into blocks
of one size. Loops that follow links have more fuel than there are words.
-/

namespace CpuComm

open Machine

/-! ### Memory -/

/-- The words of memory, by their byte address. -/
structure Mem where
  word : ℕ → ℕ

namespace Mem

def zero : Mem := ⟨fun _ => 0⟩

def rd (m : Mem) (a : ℕ) : ℕ := m.word (u32 a)

def wr (m : Mem) (a v : ℕ) : Mem := ⟨Function.update m.word (u32 a) (u32 v)⟩

def pteAddr (pt p k : ℕ) : ℕ := pt + 12 * p + 4 * k

def pte (m : Mem) (pt p k : ℕ) : ℕ := m.rd (pteAddr pt p k)

def setPte (m : Mem) (pt p k v : ℕ) : Mem := m.wr (pteAddr pt p k) v

end Mem

def smmPageCount (size : ℕ) : ℕ := u32 (size + 4095) / 4096

def smmDataStart (size : ℕ) : ℕ := (12 * smmPageCount size + 4095) / 4096 * 4096 + 4096

/-- Where the heap is. The shared memory is mapped at `shMemAddrBase` and has the physical address
`shMemAddr`; the heap starts on a page and has room for its page table. -/
structure Smm where
  shMemAddrBase : ℕ
  shMemAddr : ℕ
  heap : ℕ
  size : ℕ
  base_pos : 0 < shMemAddrBase
  addr_pos : 0 < shMemAddr
  base_le : shMemAddrBase ≤ heap
  aligned : heap % 4096 = 0
  room : smmDataStart size ≤ size
  vir_lt : heap + size < 4294967296
  phy_lt : heap - shMemAddrBase + shMemAddr + size < 4294967296

namespace Smm

variable (S : Smm)

def toVir (p : ℕ) : ℕ := sub32 (p + S.shMemAddrBase) S.shMemAddr

def toPhy (v : ℕ) : ℕ := sub32 (v + S.shMemAddr) S.shMemAddrBase

def smmPhy2vir (p : ℕ) : ℕ := if p = 0 then 0 else S.toVir p

def smmVir2phy (v : ℕ) : ℕ := if v = 0 then 0 else S.toPhy v

variable (m : Mem)

def hdr (i : ℕ) : ℕ := m.rd (S.heap + 4 * i)

def setHdr (i v : ℕ) : Mem := m.wr (S.heap + 4 * i) v

def classSlot (i : ℕ) : ℕ := S.heap + 4 * (2 * i + 17)

/-- The header word that counts the pages cut for class `i` in `__shmalloc`. -/
def mallocPageCounter (i : ℕ) : ℕ := i + 5

/-- The header word that `Trid_SMM_Free` takes for it. -/
def freePageCounter (i : ℕ) : ℕ := 2 * i + 5

def addHdr (i v : ℕ) : Mem := S.setHdr m i (S.hdr m i + v)

def subHdr (i v : ℕ) : Mem := S.setHdr m i (sub32 (S.hdr m i) v)

def pageTable : ℕ := S.smmPhy2vir (S.hdr m 1)

def dataBase : ℕ := S.smmPhy2vir (S.hdr m 0)

def tridSmmInit : Mem :=
  let m := S.setHdr Mem.zero 0 (S.toPhy (S.heap + 4096))
  let m := S.setHdr m 1 (S.toPhy (S.heap + 4096))
  let m := S.setHdr m 2 (smmPageCount S.size)
  let m := S.setHdr m 45 (smmDataStart S.size)
  let m := S.setHdr m 46 S.size
  S.setHdr m 47 (S.toPhy S.heap)

def loopFuel : ℕ := 4294967297

/-! ### The break -/

def shmallocBrk (a2 : ℕ) : Mem × ℕ :=
  let newBreak := u32 (a2 + S.hdr m 45)
  if a2 ≠ 0 ∧ i32 newBreak > i32 (S.hdr m 46) then (m, 0)
  else
    let m := if a2 ≠ 0 then S.setHdr m 45 newBreak else m
    let curBreak := u32 (S.hdr m 47 + S.hdr m 45)
    (m, if curBreak ≠ a2 then sub32 (S.toVir curBreak) a2 else 0)

def neededPages (endAddr : ℕ) : ℤ :=
  (i32 (sub32 endAddr (S.dataBase m))).tdiv 4096 + 1

def morecoreAt (ptr a2 : ℕ) : Mem × ℕ :=
  if ptr = 0 then (m, 0)
  else
    let needed := S.neededPages m (u32 (ptr + a2))
    if needed > i32 (S.hdr m 2) then (m, 0) else (S.setHdr m 4 (ofInt32 needed), ptr)

def morecore (a2 : ℕ) : Mem × ℕ :=
  let b := S.shmallocBrk m a2
  if b.2 % 4096 ≠ 0 then
    let waste := 4096 - b.2 % 4096
    S.morecoreAt (S.shmallocBrk b.1 waste).1 (u32 (b.2 + waste)) a2
  else S.morecoreAt b.1 b.2 a2

/-! ### Whole pages -/

def runSearch (m : Mem) (pt pages start : ℕ) : ℕ → ℕ → Option (Option ℕ)
  | 0, _ => none
  | n + 1, cur =>
    if pages ≤ m.pte pt cur 0 then some (some cur)
    else if m.pte pt cur 1 = start then some none
    else runSearch m pt pages start n (m.pte pt cur 1)

def pageOf (p : ℕ) : ℕ := sub32 (S.dataBase m + 4096 * p) 4096

def pageIndex (a : ℕ) : ℕ :=
  ofInt32 ((i32 (sub32 a (S.dataBase m))).tdiv 4096) + 1

def extendLast (pt pages : ℕ) : Mem × Bool :=
  let last := m.pte pt 0 2
  let count := m.pte pt last 0
  if S.hdr m 4 = 0 ∨ S.hdr m 4 ≠ u32 (last + count) then (m, false)
  else if (S.shmallocBrk m 0).2 ≠ S.pageOf m last then (m, false)
  else
    let extraPages := sub32 pages count
    let extraBytes := u32 (4096 * extraPages)
    let b := S.morecore m extraBytes
    if b.2 = 0 then (b.1, false)
    else
      let cur := b.1.pte pt 0 2
      let m := b.1.setPte pt cur 0 (b.1.pte pt cur 0 + extraPages)
      (S.addHdr m 44 extraBytes, true)

def pageSearch (pt pages start : ℕ) : ℕ → Mem → ℕ → Option (Mem × Option ℕ)
  | 0, _, _ => none
  | n + 1, m, cur =>
    (runSearch m pt pages start loopFuel cur).bind fun
      | some c => some (m, some c)
      | none =>
        let e := S.extendLast m pt pages
        if e.2 then pageSearch pt pages start n e.1 (e.1.pte pt 0 2) else some (e.1, none)

def consumeRun (pt cur : ℕ) : Mem :=
  let m := m.setPte pt (m.pte pt cur 1) 2 (m.pte pt cur 2)
  let m := m.setPte pt (m.pte pt cur 2) 1 (m.pte pt cur 1)
  let m := S.setHdr m 3 (m.pte pt cur 1)
  S.subHdr m 43 1

def splitRun (pt cur pages count : ℕ) : Mem :=
  let split := u32 (cur + pages)
  let m := m.setPte pt split 0 (sub32 count pages)
  let m := m.setPte pt split 1 (m.pte pt cur 1)
  let m := m.setPte pt split 2 (m.pte pt cur 2)
  let m := S.setHdr m 3 split
  let m := m.setPte pt (m.pte pt cur 1) 2 split
  m.setPte pt (m.pte pt cur 2) 1 split

def takeRun (pt cur pages : ℕ) : Mem × ℕ :=
  let count := m.pte pt cur 0
  let result := S.pageOf m cur
  let m := if pages ≥ count then S.consumeRun m pt cur else S.splitRun m pt cur pages count
  let m := m.setPte pt cur 0 0
  let m := m.setPte pt cur 1 pages
  let m := S.addHdr m 41 1
  let m := S.addHdr m 42 (4096 * pages)
  (S.subHdr m 44 (4096 * pages), result)

def newPages (pt pages : ℕ) : Mem × ℕ :=
  let b := S.morecore m (u32 (4096 * pages))
  if b.2 = 0 then (b.1, 0)
  else
    let p := S.pageIndex b.1 b.2
    let m := b.1.setPte pt p 0 0
    let m := m.setPte pt p 1 pages
    let m := S.addHdr m 41 1
    (S.addHdr m 42 (4096 * pages), b.2)

def shmallocPages (size : ℕ) : Option (Mem × ℕ) :=
  let pages := u32 (size + 4095) / 4096
  let pt := S.pageTable m
  let start := S.hdr m 3
  (S.pageSearch pt pages start loopFuel m start).map fun
    | (m, some cur) => S.takeRun m pt cur pages
    | (m, none) => S.newPages m pt pages

/-! ### Blocks of a page -/

def classLoop : ℕ → ℕ → ℕ → ℕ
  | 0, i, _ => i
  | n + 1, i, v => if v = 0 then i else classLoop n (i + 1) (v / 2)

def sizeClass (size : ℕ) : ℕ := classLoop 32 1 (size - 1)

def Outside (a : ℕ) : Prop :=
  a ≤ S.smmPhy2vir (S.hdr m 47) ∨ a ≥ u32 (S.smmPhy2vir (S.hdr m 47) + S.hdr m 46) ∨ a % 4 ≠ 0

def OutsidePhy (p : ℕ) : Prop :=
  S.hdr m 47 ≥ p ∨ p ≥ u32 (S.hdr m 47 + S.hdr m 46) ∨ p % 4 ≠ 0

instance (a : ℕ) : Decidable (S.Outside m a) := inferInstanceAs (Decidable (_ ∨ _ ∨ _))

instance (p : ℕ) : Decidable (S.OutsidePhy m p) :=
  inferInstanceAs (Decidable (_ ∨ _ ∨ _))

def wrPhy (p off v : ℕ) : Mem :=
  if S.smmPhy2vir p ≠ 0 then m.wr (S.smmPhy2vir p + off) v else m

def countedPage (a : ℕ) : ℕ := u32 (sub32 a (S.dataBase m) + 4095) / 4096 + 1

def takeBlock (pt i head : ℕ) : Mem × ℕ :=
  let next := m.rd head
  let prev := m.rd (head + 4)
  let m := S.wrPhy m next 4 prev
  let m := if S.toVir prev ≠ 0 then m.wr (S.toVir prev) next else m
  let p := S.countedPage m head
  let m := m.setPte pt p 1 (sub32 (m.pte pt p 1) 1)
  let m := if m.pte pt p 1 = 0 then m.setPte pt p 2 (m.rd head % 4096 / 2 ^ i) else m
  let m := S.addHdr m 41 1
  let m := S.addHdr m 42 (2 ^ i)
  let m := S.subHdr m 43 1
  (S.subHdr m 44 (2 ^ i), head)

def popBlock (pt i head : ℕ) : Mem × ℕ :=
  if S.Outside m head then (m, 0)
  else if S.OutsidePhy m (m.rd (head + 4)) then (m, 0)
  else if S.smmPhy2vir (m.rd head) ≠ 0 ∧ S.Outside m (S.smmPhy2vir (m.rd head)) then (m, 0)
  else S.takeBlock m pt i head

def pushBlock (i block : ℕ) : Mem :=
  let m := m.wr block (S.hdr m (2 * i + 17))
  let m := m.wr (block + 4) (S.toPhy (S.classSlot i))
  let m := S.setHdr m (2 * i + 17) (S.smmVir2phy block)
  if m.rd block ≠ 0 then m.wr (S.toVir (m.rd block) + 4) (S.smmVir2phy block) else m

def cutPage (pt i page : ℕ) : Mem :=
  let subCount := 4096 / 2 ^ i
  let m := S.addHdr m (mallocPageCounter i) 1
  let m := (List.range' 1 (subCount - 1)).foldl (fun m j =>
      S.pushBlock m i (u32 (page + j * 2 ^ i))) m
  let p := S.pageIndex m page
  let m := m.setPte pt p 0 i
  let m := m.setPte pt p 1 (subCount - 1)
  let m := m.setPte pt p 2 (subCount - 1)
  let m := S.setHdr m 43 (sub32 (S.hdr m 43) 1 + subCount)
  let m := S.setHdr m 42 (sub32 (S.hdr m 42) 4096 + 2 ^ i)
  S.setHdr m 44 (sub32 (S.hdr m 44 + 4096) (2 ^ i))

def shmallocBlock (i : ℕ) : Option (Mem × ℕ) :=
  let pt := S.pageTable m
  let head := S.smmPhy2vir (S.hdr m (2 * i + 17))
  if head ≠ 0 then some (S.popBlock m pt i head)
  else (S.shmallocPages m 4096).map fun b =>
    if b.2 = 0 then b else (S.cutPage b.1 pt i b.2, b.2)

def shmalloc (size : ℕ) : Option (Mem × ℕ) :=
  if size = 0 then some (m, 0)
  else
    let size := if size ≤ 7 then 8 else size
    if size > 2048 then S.shmallocPages m size else S.shmallocBlock m (sizeClass size)

/-! ### Release of pages -/

def walkUp (m : Mem) (pt x : ℕ) : ℕ → ℕ → Option ℕ
  | 0, _ => none
  | n + 1, cur =>
    let next := m.pte pt cur 1
    if next = 0 then some 0 else if x > next then walkUp m pt x n next else some next

def walkDown (m : Mem) (pt x : ℕ) : ℕ → ℕ → Option ℕ
  | 0, _ => none
  | n + 1, cur =>
    let prev := m.pte pt cur 2
    if x < prev then walkDown m pt x n prev else some prev

def curSearch (pt x : ℕ) : Option ℕ :=
  let start := S.hdr m 3
  if x ≥ start then walkUp m pt x loopFuel start
  else (walkDown m pt x loopFuel start).map fun c => m.pte pt (m.pte pt c 2) 1

def insertRun (pt x pages q : ℕ) : Mem × ℕ :=
  let count := m.pte pt q 0
  if x = u32 (q + count) then (m.setPte pt q 0 (count + pages), q)
  else
    let m := m.setPte pt x 0 pages
    let m := m.setPte pt x 1 (m.pte pt q 1)
    let m := m.setPte pt x 2 q
    let m := m.setPte pt q 1 x
    let m := m.setPte pt (m.pte pt q 2) 2 x
    (S.addHdr m 43 1, x)

def mergeNext (pt r cur : ℕ) : Mem :=
  if u32 (r + m.pte pt r 0) = cur then
    let m := m.setPte pt r 0 (m.pte pt r 0 + m.pte pt cur 0)
    let next := m.pte pt cur 1
    let m := m.setPte pt r 1 next
    let m := m.setPte pt next 2 r
    S.subHdr m 43 1
  else m

def shrinkBreak (pt r : ℕ) : Mem :=
  let count := m.pte pt r 0
  if count > 7 ∧ u32 (r + count) = S.hdr m 4 ∧
      (S.shmallocBrk m 0).2 = u32 (S.pageOf m r + 4096 * count) then
    let m := S.subHdr m 4 count
    let m := (S.shmallocBrk m (sub32 0 (4096 * count))).1
    let m := m.setPte pt (m.pte pt r 2) 1 (m.pte pt r 1)
    let m := m.setPte pt (m.pte pt r 1) 2 (m.pte pt r 2)
    let m := S.subHdr m 43 1
    S.subHdr m 44 (4096 * count)
  else m

def freePages (pt x pages : ℕ) : Option Mem :=
  let m := S.subHdr m 42 (4096 * pages)
  let m := S.addHdr m 44 (4096 * pages)
  (S.curSearch m pt x).map fun cur =>
    let b := S.insertRun m pt x pages (m.pte pt cur 1)
    let m := S.mergeNext b.1 pt b.2 cur
    let m := S.shrinkBreak m pt b.2
    S.setHdr m 3 b.2

/-! ### Release of blocks -/

def purgePage (i page : ℕ) : ℕ → Mem → ℕ → Mem × Bool
  | 0, m, _ => (m, true)
  | n + 1, m, cur =>
    if cur = 0 then (m, true)
    else
      let a := S.toVir cur
      if S.Outside m a then (m, false)
      else if a / 4096 * 4096 = page then
        let next := m.rd a
        let prev := m.rd (a + 4)
        let m := S.wrPhy m next 4 prev
        let m := if S.smmPhy2vir prev ≠ 0 then m.wr (S.smmPhy2vir prev) next
          else S.setHdr m (2 * i + 17) next
        purgePage i page n m next
      else purgePage i page n m (m.rd a)

def releasePage (pt i a : ℕ) : Option Mem :=
  let subCount := 4096 / 2 ^ i
  let page := a / 4096 * 4096
  let m := S.subHdr m (freePageCounter i) 1
  let b := S.purgePage i page (subCount - 1) m (S.hdr m (2 * i + 17))
  if b.2 then
    let m := S.subHdr b.1 43 1
    let m := S.subHdr m 43 (subCount - 1)
    let m := S.addHdr m 42 (4096 - 2 ^ i)
    let m := S.subHdr m 44 (4096 - 2 ^ i)
    let p := sub32 page (S.dataBase m) / 4096 + 1
    let m := m.setPte pt p 0 0
    let m := m.setPte pt p 1 1
    S.freePages (S.addHdr m 41 1) pt p 1
  else some b.1

def insertBlock (pt p i a : ℕ) : Mem :=
  let old := S.hdr m (2 * i + 17)
  let m := m.wr a old
  let m := m.wr (a + 4) (S.toPhy (S.classSlot i))
  let m := if old ≠ 0 ∧ ¬ S.Outside m (S.toVir old) then m.wr (S.toVir old + 4) (S.toPhy a) else m
  let m := S.setHdr m (2 * i + 17) (S.smmVir2phy a)
  let m := m.setPte pt p 1 (m.pte pt p 1 + 1)
  m.setPte pt p 2 (m.rd a % 4096 / 2 ^ i)

def freeBlock (pt p i a : ℕ) : Option Mem :=
  if S.Outside m a then some m
  else
    let count := m.pte pt p 1
    let m := S.subHdr m 42 (2 ^ i)
    let m := S.addHdr m 44 (2 ^ i)
    let m := S.addHdr m 43 1
    if count = sub32 (4096 / 2 ^ i) 1 ∧ S.hdr m (freePageCounter i) > 1 then S.releasePage m pt i a
    else some (S.insertBlock m pt p i a)

def tridSmmFree (phyAddr : ℕ) : Option Mem :=
  if phyAddr = 0 then some m
  else
    let pt := S.pageTable m
    let a := S.toVir phyAddr
    let p := sub32 a (S.dataBase m) / 4096 + 1
    let m := S.subHdr m 41 1
    if m.pte pt p 0 = 0 then S.freePages m pt p (m.pte pt p 1)
    else S.freeBlock m pt p (m.pte pt p 0) a

/-! ### Sequences of calls -/

inductive Op
  | malloc (size : ℕ)
  | free (a : ℕ)
deriving DecidableEq

/-- The memory, and the live blocks with their addresses and the sizes that were asked for. -/
structure State where
  mem : Mem
  live : List (ℕ × ℕ)

def start : State := ⟨S.tridSmmInit, []⟩

def step (s : State) : Op → Option State
  | .malloc size => (S.shmalloc s.mem size).map fun b =>
      ⟨b.1, if b.2 = 0 then s.live else s.live ++ [(b.2, size)]⟩
  | .free a =>
    if a ∈ s.live.map Prod.fst then
      (S.tridSmmFree s.mem (S.toPhy a)).map fun m => ⟨m, s.live.filter fun b => b.1 ≠ a⟩
    else none

end Smm

end CpuComm
