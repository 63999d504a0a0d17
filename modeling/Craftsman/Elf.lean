import Craftsman.Numbering
import Mathlib.Data.List.Forall2

/-! The symbols of a library as they are mapped. The program headers lead to the
dynamic section, that to the symbol table and the strings; the table is taken to
end where the strings start. -/
namespace Craftsman.Elf
open Craftsman.Memory Craftsman.Dlfn Craftsman.Numbering

/-- The mapping of a library, from its load address on; a cell without a value is not mapped. -/
structure Mapping where
  base : Nat
  cells : List Cell

def Mapping.from (map : Mapping) (address : Nat) : List Cell :=
  if map.base ≤ address then map.cells.drop (address - map.base) else []

/-- A little-endian number of some bytes. -/
def Mapping.word (map : Mapping) : Nat → Nat → Except Stop Nat
  | 0,_ => .ok 0
  | width+1,address =>
    match map.from address with
    | some b::_ => do
      let high ← map.word width (address + 1)
      return b.toNat + 256 * high
    | _ => .error .fault

def Mapping.string (map : Mapping) (address : Nat) : Except Stop (List Byte) := cstring (map.from address)

/-- `ELF64_ST_TYPE`; `STT_OBJECT` is 1 and `STT_FUNC` is 2. -/
def stType (info : Nat) : SymbolType :=
  if info % 16 = 2 then .func else if info % 16 = 1 then .object else .other

/-- `ELF64_ST_BIND`; `STB_GLOBAL` is 1. -/
def stBind (info : Nat) : Nat := info / 16

section Parsing
variable {β : Type}

/-- One loop of `parse_symtab` over the entries, 24 bytes each. -/
def symbolLoop (map : Mapping) (strtab : Nat) (type : SymbolType) (entry : Symbol → β) (iter : Nat) (table : List β) :
    Except Stop (List β) :=
  if iter < strtab then do
    let info ← map.word 1 (iter + 4)
    if stType info ≠ type then symbolLoop map strtab type entry (iter + 24) table
    else if stBind info ≠ 1 then symbolLoop map strtab type entry (iter + 24) table
    else
      let size ← map.word 8 (iter + 16)
      if size = 0 then symbolLoop map strtab type entry (iter + 24) table
      else
        let name ← map.word 4 iter
        let value ← map.word 8 (iter + 8)
        if maxSymbols ≤ table.length then return table
        else
          let text ← map.string (strtab + name)
          symbolLoop map strtab type entry (iter + 24) (table ++ [entry ⟨text,type,true,map.base + value,size⟩])
  else .ok table
termination_by strtab - iter

/-- The tables that the loader fills. -/
structure Tables where
  functions : List Function
  objects : List Object

def parseSymbols (map : Mapping) (symtab strtab : Nat) (tables : Tables) : Except Stop Tables := do
  let functions ← symbolLoop map strtab .func functionInit symtab tables.functions
  let objects ← symbolLoop map strtab .object objectInit symtab tables.objects
  return ⟨functions,objects⟩

/-- The entries up to the first with tag 0: the last `DT_SYMTAB` (6) and `DT_STRTAB` (5). -/
def dynamicFrom (map : Mapping) (dyn strtab symtab : Nat) : Except Stop (Nat × Nat) :=
  if map.base + map.cells.length ≤ dyn then .error .fault
  else do
    let tag ← map.word 8 dyn
    if tag = 0 then return (strtab,symtab)
    else
      let pointer ← map.word 8 (dyn + 8)
      dynamicFrom map (dyn + 16) (if tag = 5 then pointer else strtab) (if tag = 6 then pointer else symtab)
termination_by map.base + map.cells.length - dyn

def parseDynamicHeader (map : Mapping) (phdr : Nat) (tables : Tables) : Except Stop Tables := do
  let vaddr ← map.word 8 (phdr + 16)
  let (strtab,symtab) ← dynamicFrom map (map.base + vaddr) 0 0
  if symtab = 0 then return tables else parseSymbols map symtab strtab tables

/-- The last program header of type `PT_DYNAMIC` (2); each one's address is printed. -/
def headerFrom (map : Mapping) (phentsize : Nat) : Nat → Nat → Nat → Except Stop Nat
  | 0,_,found => .ok found
  | left+1,phdr,found => do
    let _ ← map.word 8 (phdr + 16)
    let type ← map.word 4 phdr
    headerFrom map phentsize left (phdr + phentsize) (if type = 2 then phdr else found)

def parseElfHeader (map : Mapping) (tables : Tables) : Except Stop Tables := do
  let phoff ← map.word 8 (map.base + 32)
  let phnum ← map.word 2 (map.base + 56)
  let phentsize ← map.word 2 (map.base + 54)
  let dynHeader ← headerFrom map phentsize phnum (map.base + phoff) 0
  if dynHeader = 0 then return tables else parseDynamicHeader map dynHeader tables

end Parsing

section Layout

def bytesOf : Nat → Nat → List Byte
  | 0,_ => []
  | width+1,n => UInt8.ofNat n::bytesOf width (n / 256)

@[simp] theorem bytesOf_length (width n : Nat) : (bytesOf width n).length = width := by
  induction width generalizing n with
  | zero => rfl
  | succ width ih => rw [bytesOf,List.length_cons,ih]

/-- The bytes stand at the address. -/
def Holds (map : Mapping) (address : Nat) (bytes : List Byte) : Prop := bytes.map some <+: map.from address

theorem from_add (map : Mapping) (address k : Nat) (inside : map.base ≤ address) :
    map.from (address + k) = (map.from address).drop k := by
  unfold Mapping.from
  rw [if_pos inside,if_pos (by omega),List.drop_drop]
  congr 1
  omega

theorem Holds.inside {map : Mapping} {address : Nat} {bytes : List Byte} (holds : Holds map address bytes)
    (some_bytes : bytes ≠ []) : map.base ≤ address ∧ address < map.base + map.cells.length := by
  have length := List.IsPrefix.length_le holds
  have positive := List.length_pos_iff.mpr some_bytes
  unfold Mapping.from at length
  split at length
  · rw [List.length_map,List.length_drop] at length
    omega
  · rw [List.length_map,List.length_nil] at length
    omega

theorem Holds.left {map : Mapping} {address : Nat} {first second : List Byte}
    (holds : Holds map address (first ++ second)) : Holds map address first := by
  unfold Holds at holds
  rw [List.map_append] at holds
  exact (List.prefix_append _ _).trans holds

theorem Holds.right {map : Mapping} {address : Nat} {first second : List Byte}
    (holds : Holds map address (first ++ second)) : Holds map (address + first.length) second := by
  rcases eq_or_ne second [] with rfl | some_bytes
  · exact List.nil_prefix
  · have inside := (holds.inside (by simp [some_bytes])).1
    obtain ⟨rest,split⟩ := holds
    refine ⟨rest,?_⟩
    rw [from_add map address _ inside,← split,List.map_append,List.append_assoc]
    simp

theorem word_holds (map : Mapping) (width address n : Nat) (small : n < 256^width)
    (holds : Holds map address (bytesOf width n)) : map.word width address = .ok n := by
  induction width generalizing address n with
  | zero =>
    have zero : n = 0 := by simpa using small
    rw [zero]
    rfl
  | succ width ih =>
    have joined : Holds map address ([UInt8.ofNat n] ++ bytesOf width (n / 256)) := holds
    have tail : Holds map (address + 1) (bytesOf width (n / 256)) := joined.right
    obtain ⟨rest,split⟩ := holds
    rw [bytesOf,List.map_cons,List.cons_append] at split
    have high : n / 256 < 256^width := by
      rw [Nat.pow_succ] at small
      omega
    have low : (UInt8.ofNat n).toNat = n % 256 := UInt8.toNat_ofNat'
    unfold Mapping.word
    rw [← split]
    dsimp only
    rw [ih (address + 1) (n / 256) high tail,ok_bind,low]
    exact congrArg Except.ok (by omega)

/-- An `Elf64_Sym`. -/
structure Entry where
  name : Nat
  info : Nat
  other : Nat
  shndx : Nat
  value : Nat
  size : Nat
  small : name < 256^4 ∧ info < 256^1 ∧ value < 256^8 ∧ size < 256^8

def Entry.bytes (entry : Entry) : List Byte :=
  bytesOf 4 entry.name ++ (bytesOf 1 entry.info ++ (bytesOf 1 entry.other ++ (bytesOf 2 entry.shndx ++
    (bytesOf 8 entry.value ++ bytesOf 8 entry.size))))

@[simp] theorem entry_length (entry : Entry) : entry.bytes.length = 24 := by simp [Entry.bytes]

/-- What an entry and the string it names say of a symbol. -/
structure Describes (map : Mapping) (strtab : Nat) (entry : Entry) (symbol : Symbol) : Prop where
  name : map.string (strtab + entry.name) = .ok symbol.name
  type : symbol.type = stType entry.info
  isGlobal : symbol.isGlobal = decide (stBind entry.info = 1)
  address : symbol.address = map.base + entry.value
  bytes : symbol.bytes = entry.size

/-- The entries that start in front of the strings. -/
def Spans (symtab strtab count : Nat) : Prop := strtab ≤ symtab + 24 * count ∧ ∀ k, k < count → symtab + 24 * k < strtab

theorem Spans.next {symtab strtab count : Nat} (spans : Spans symtab strtab (count + 1)) :
    symtab < strtab ∧ Spans (symtab + 24) strtab count := by
  obtain ⟨ending,starts⟩ := spans
  refine ⟨by simpa using starts 0 (Nat.succ_pos count),by omega,?_⟩
  intro k below
  have start := starts (k + 1) (Nat.succ_lt_succ below)
  omega

theorem entry_words (map : Mapping) (iter : Nat) (entry : Entry) (holds : Holds map iter entry.bytes) :
    map.word 4 iter = .ok entry.name ∧ map.word 1 (iter + 4) = .ok entry.info ∧
      map.word 8 (iter + 8) = .ok entry.value ∧ map.word 8 (iter + 16) = .ok entry.size := by
  obtain ⟨name,info,value,size⟩ := entry.small
  have fields := holds.right
  have behind := fields.right.right.right
  simp only [bytesOf_length,Nat.add_assoc,Nat.reduceAdd] at fields behind
  refine ⟨word_holds map 4 iter _ name holds.left,word_holds map 1 _ _ info fields.left,
    word_holds map 8 _ _ value behind.left,word_holds map 8 _ _ size ?_⟩
  have last := behind.right
  simpa only [bytesOf_length,Nat.add_assoc,Nat.reduceAdd] using last

/-- The loop over the mapped entries is the loop over their symbols. -/
theorem symbolLoop_symbols {β : Type} (map : Mapping) (strtab : Nat) (type : SymbolType) (entry : Symbol → β)
    (entries : List Entry) (symbols : List Symbol) (described : List.Forall₂ (Describes map strtab) entries symbols)
    (iter : Nat) (holds : Holds map iter (entries.flatMap Entry.bytes)) (spans : Spans iter strtab entries.length)
    (table : List β) : symbolLoop map strtab type entry iter table = .ok (parseSymtab type entry symbols table) := by
  induction described generalizing iter table with
  | nil =>
    have ended : ¬ iter < strtab := Nat.not_lt.mpr spans.1
    rw [symbolLoop,if_neg ended]
    rfl
  | @cons item symbol items symbols described rest ih =>
    obtain ⟨more,spans⟩ := Spans.next spans
    rw [List.flatMap_cons] at holds
    have tail := holds.right
    rw [entry_length] at tail
    obtain ⟨name,info,value,size⟩ := entry_words map iter item holds.left
    have next (table : List β) := ih (iter + 24) tail spans table
    have same : symbol = ⟨symbol.name,symbol.type,symbol.isGlobal,map.base + item.value,item.size⟩ := by
      rw [← described.address,← described.bytes]
    rw [symbolLoop,if_pos more,info,ok_bind,parseSymtab,described.type]
    split
    · exact next table
    · next kind =>
      have bind : stBind item.info ≠ 1 ↔ symbol.isGlobal = false := by rw [described.isGlobal]; simp
      by_cases isGlobal : symbol.isGlobal = false
      · rw [if_pos (bind.mpr isGlobal),if_pos isGlobal]
        exact next table
      · rw [if_neg (mt bind.mp isGlobal),if_neg isGlobal,size,ok_bind,described.bytes]
        split
        · exact next table
        · rw [name,ok_bind,value,ok_bind]
          split
          · rfl
          · have listed : entry ⟨symbol.name,type,true,map.base + item.value,item.size⟩ = entry symbol := by
              have one : symbol.isGlobal = true := by simpa using isGlobal
              have other : symbol.type = type := by simpa [described.type] using kind
              nth_rewrite 2 [same]
              rw [one,other]
            rw [described.name,ok_bind,listed]
            exact next _

theorem parseSymbols_symbols (map : Mapping) (symtab strtab : Nat) (entries : List Entry) (symbols : List Symbol)
    (described : List.Forall₂ (Describes map strtab) entries symbols)
    (holds : Holds map symtab (entries.flatMap Entry.bytes)) (spans : Spans symtab strtab entries.length)
    (tables : Tables) : parseSymbols map symtab strtab tables =
      .ok ⟨parseSymtab .func functionInit symbols tables.functions,
        parseSymtab .object objectInit symbols tables.objects⟩ := by
  rw [parseSymbols,symbolLoop_symbols map strtab .func functionInit entries symbols described symtab holds spans,ok_bind,
    symbolLoop_symbols map strtab .object objectInit entries symbols described symtab holds spans,ok_bind]
  rfl

/-- The last entry with a tag. -/
def Last (tag value : Nat) (entries : List (Nat × Nat)) : Prop :=
  ∃ front behind, entries = front ++ (tag,value)::behind ∧ ∀ entry ∈ behind, entry.1 ≠ tag

/-- What the scan has found behind some entries. -/
def lastOf (tag : Nat) (entries : List (Nat × Nat)) (found : Nat) : Nat :=
  entries.foldl (fun found entry => if entry.1 = tag then entry.2 else found) found

theorem lastOf_absent (tag : Nat) (entries : List (Nat × Nat)) (found : Nat) (absent : ∀ entry ∈ entries, entry.1 ≠ tag) :
    lastOf tag entries found = found := by
  induction entries generalizing found with
  | nil => rfl
  | cons entry entries ih =>
    rw [lastOf,List.foldl_cons,if_neg (absent entry List.mem_cons_self)]
    exact ih found fun other member => absent other (List.mem_cons_of_mem _ member)

theorem lastOf_last (tag value : Nat) (entries : List (Nat × Nat)) (found : Nat) (last : Last tag value entries) :
    lastOf tag entries found = value := by
  obtain ⟨front,behind,rfl,absent⟩ := last
  rw [lastOf,List.foldl_append,List.foldl_cons,if_pos rfl]
  exact lastOf_absent tag behind value absent

def dynamicBytes (entries : List (Nat × Nat)) : List Byte :=
  entries.flatMap fun entry => bytesOf 8 entry.1 ++ bytesOf 8 entry.2

theorem dynamicFrom_last (map : Mapping) (entries : List (Nat × Nat)) (dyn strtab symtab : Nat)
    (holds : Holds map dyn (dynamicBytes entries ++ bytesOf 8 0))
    (small : ∀ entry ∈ entries, entry.1 ≠ 0 ∧ entry.1 < 256^8 ∧ entry.2 < 256^8) :
    dynamicFrom map dyn strtab symtab = .ok (lastOf 5 entries strtab,lastOf 6 entries symtab) := by
  induction entries generalizing dyn strtab symtab with
  | nil =>
    have inside := holds.inside (by simp [bytesOf])
    rw [dynamicBytes,List.flatMap_nil,List.nil_append] at holds
    rw [dynamicFrom,if_neg (Nat.not_le.mpr inside.2),word_holds map 8 dyn 0 (by decide) holds,ok_bind,if_pos rfl]
    rfl
  | cons entry entries ih =>
    have inside := holds.inside (by simp [dynamicBytes,bytesOf])
    obtain ⟨nonzero,tag,pointer⟩ := small entry List.mem_cons_self
    rw [dynamicBytes,List.flatMap_cons,List.append_assoc,List.append_assoc] at holds
    have rest := holds.right
    have behind := rest.right
    simp only [bytesOf_length,Nat.add_assoc,Nat.reduceAdd] at rest behind
    rw [dynamicFrom,if_neg (Nat.not_le.mpr inside.2),word_holds map 8 dyn _ tag holds.left,ok_bind,if_neg nonzero,
      word_holds map 8 _ _ pointer rest.left,ok_bind,
      ih (dyn + 16) _ _ behind fun other member => small other (List.mem_cons_of_mem _ member)]
    rfl

/-- What the headers of a library say. -/
structure Image where
  phoff : Nat
  phentsize : Nat
  headers : List (Nat × Nat)
  vaddr : Nat
  dynamic : List (Nat × Nat)
  symtab : Nat
  strtab : Nat
  entries : List Entry

/-- The program headers stand at their places, each with its type and address. -/
def HeadersAt (map : Mapping) (phentsize : Nat) (headers : List (Nat × Nat)) (phdr : Nat) : Prop :=
  ∀ i header, headers[i]? = some header → header.1 < 256^4 ∧ header.2 < 256^8 ∧
    Holds map (phdr + i * phentsize) (bytesOf 4 header.1) ∧ Holds map (phdr + i * phentsize + 16) (bytesOf 8 header.2)

theorem HeadersAt.next {map : Mapping} {phentsize phdr : Nat} {header : Nat × Nat} {headers : List (Nat × Nat)}
    (placed : HeadersAt map phentsize (header::headers) phdr) : HeadersAt map phentsize headers (phdr + phentsize) := by
  intro i other found
  have same : phdr + phentsize + i * phentsize = phdr + (i + 1) * phentsize := by rw [Nat.succ_mul]; omega
  rw [same]
  exact placed (i + 1) other found

/-- The types of the headers and where they stand. -/
def places (phentsize : Nat) : Nat → List (Nat × Nat) → List (Nat × Nat)
  | _,[] => []
  | phdr,header::later => (header.1,phdr)::places phentsize (phdr + phentsize) later

theorem headerFrom_last (map : Mapping) (phentsize : Nat) (headers : List (Nat × Nat)) (phdr found : Nat)
    (placed : HeadersAt map phentsize headers phdr) :
    headerFrom map phentsize headers.length phdr found = .ok (lastOf 2 (places phentsize phdr headers) found) := by
  induction headers generalizing phdr found with
  | nil => rfl
  | cons header headers ih =>
    obtain ⟨type,address,first,second⟩ := placed 0 header rfl
    rw [Nat.zero_mul,Nat.add_zero] at first second
    rw [List.length_cons,headerFrom,word_holds map 8 _ _ address second,ok_bind,word_holds map 4 _ _ type first,ok_bind,
      ih (phdr + phentsize) _ placed.next]
    rfl

theorem places_last (phentsize phdr vaddr : Nat) (front behind : List (Nat × Nat)) (absent : ∀ header ∈ behind, header.1 ≠ 2) :
    Last 2 (phdr + front.length * phentsize) (places phentsize phdr (front ++ (2,vaddr)::behind)) := by
  induction front generalizing phdr with
  | nil =>
    refine ⟨[],places phentsize (phdr + phentsize) behind,by simp [places],?_⟩
    generalize phdr + phentsize = next
    induction behind generalizing next with
    | nil => simp [places]
    | cons header behind ih =>
      intro place member
      rcases List.mem_cons.mp member with rfl | later
      · exact absent header List.mem_cons_self
      · exact ih (fun other inside => absent other (List.mem_cons_of_mem _ inside)) _ place later
  | cons header front ih =>
    obtain ⟨before,after,split,none⟩ := ih (phdr + phentsize)
    have same : phdr + (header::front).length * phentsize = phdr + phentsize + front.length * phentsize := by
      rw [List.length_cons,Nat.succ_mul]
      omega
    refine ⟨(header.1,phdr)::before,after,?_,none⟩
    rw [same,List.cons_append,places,split,List.cons_append]

/-- A library is mapped: its headers, its dynamic section and its symbol table stand where they say. -/
structure Maps (map : Mapping) (image : Image) : Prop where
  phoff : Holds map (map.base + 32) (bytesOf 8 image.phoff)
  phnum : Holds map (map.base + 56) (bytesOf 2 image.headers.length)
  phentsize : Holds map (map.base + 54) (bytesOf 2 image.phentsize)
  small : image.phoff < 256^8 ∧ image.headers.length < 256^2 ∧ image.phentsize < 256^2
  headers : HeadersAt map image.phentsize image.headers (map.base + image.phoff)
  behind : 0 < map.base + image.phoff
  located : Last 2 image.vaddr image.headers
  tags : ∀ entry ∈ image.dynamic, entry.1 ≠ 0 ∧ entry.1 < 256^8 ∧ entry.2 < 256^8
  dynamic : Holds map (map.base + image.vaddr) (dynamicBytes image.dynamic ++ bytesOf 8 0)
  symtab : Last 6 image.symtab image.dynamic
  strtab : Last 5 image.strtab image.dynamic
  present : image.symtab ≠ 0
  entries : Holds map image.symtab (image.entries.flatMap Entry.bytes)
  spans : Spans image.symtab image.strtab image.entries.length

/-- From a mapped library the parser takes exactly the symbols of its table: what the
loops over a list of symbols take of them. -/
theorem image_parsed (map : Mapping) (image : Image) (symbols : List Symbol) (tables : Tables) (maps : Maps map image)
    (described : List.Forall₂ (Describes map image.strtab) image.entries symbols) :
    parseElfHeader map tables = .ok ⟨parseSymtab .func functionInit symbols tables.functions,
      parseSymtab .object objectInit symbols tables.objects⟩ := by
  obtain ⟨phoff,phnum,phentsize⟩ := maps.small
  obtain ⟨front,behind,split,absent⟩ := maps.located
  have place : lastOf 2 (places image.phentsize (map.base + image.phoff) image.headers) 0 =
      map.base + image.phoff + front.length * image.phentsize := by
    apply lastOf_last
    rw [split]
    exact places_last image.phentsize _ image.vaddr front behind absent
  have found : map.base + image.phoff + front.length * image.phentsize ≠ 0 := by
    have positive := maps.behind
    omega
  obtain ⟨_,address,_,vaddr⟩ := maps.headers front.length (2,image.vaddr) (by rw [split]; simp)
  have parsed : parseDynamicHeader map (map.base + image.phoff + front.length * image.phentsize) tables =
      .ok ⟨parseSymtab .func functionInit symbols tables.functions,
        parseSymtab .object objectInit symbols tables.objects⟩ := by
    rw [parseDynamicHeader,word_holds map 8 _ _ address vaddr,ok_bind,
      dynamicFrom_last map image.dynamic _ 0 0 maps.dynamic maps.tags,ok_bind,lastOf_last 5 _ _ 0 maps.strtab,
      lastOf_last 6 _ _ 0 maps.symtab]
    dsimp only
    rw [if_neg maps.present]
    exact parseSymbols_symbols map image.symtab image.strtab image.entries symbols described maps.entries maps.spans tables
  rw [parseElfHeader,word_holds map 8 _ _ phoff maps.phoff,ok_bind,word_holds map 2 _ _ phnum maps.phnum,ok_bind,
    word_holds map 2 _ _ phentsize maps.phentsize,ok_bind,headerFrom_last map _ _ _ 0 maps.headers,ok_bind,place,
    if_neg found]
  exact parsed

def smallEntry : Entry := ⟨0,18,0,1,4096,64,by decide⟩

/-- One program header, one dynamic section, one function. -/
def smallMap : Mapping where
  base := 4096
  cells := (List.replicate 32 0 ++ bytesOf 8 64 ++ List.replicate 14 0 ++ bytesOf 2 56 ++ bytesOf 2 1 ++ List.replicate 6 0 ++
    bytesOf 4 2 ++ List.replicate 12 0 ++ bytesOf 8 120 ++ List.replicate 32 0 ++
    dynamicBytes [(6,4256),(5,4280)] ++ bytesOf 8 0 ++ smallEntry.bytes ++ [102,0]).map some

def smallImage : Image := ⟨64,56,[(2,120)],120,[(6,4256),(5,4280)],4256,4280,[smallEntry]⟩

theorem small_maps : Maps smallMap smallImage where
  phoff := by unfold Holds; decide
  phnum := by unfold Holds; decide
  phentsize := by unfold Holds; decide
  small := by decide
  headers := by
    intro i header found
    match i with
    | 0 =>
      obtain rfl := Option.some.inj found
      exact ⟨by decide,by decide,by unfold Holds; decide,by unfold Holds; decide⟩
    | i+1 => cases found
  behind := by decide
  located := ⟨[],[],rfl,by simp⟩
  tags := by decide
  dynamic := by unfold Holds; decide
  symtab := ⟨[],[(5,4280)],rfl,by simp⟩
  strtab := ⟨[(6,4256)],[],rfl,by simp⟩
  present := by decide
  entries := by unfold Holds; decide
  spans := by
    refine ⟨by decide,?_⟩
    intro k below
    obtain rfl : k = 0 := Nat.lt_one_iff.mp below
    decide

theorem small_parsed : parseElfHeader smallMap ⟨[],[]⟩ = .ok ⟨[⟨[102],8192,fun _ => 0⟩],[]⟩ :=
  image_parsed smallMap smallImage [⟨[102],.func,true,8192,64⟩] ⟨[],[]⟩ small_maps
    (.cons ⟨by decide,by decide,by decide,by decide,by decide⟩ .nil)

end Layout

end Craftsman.Elf
