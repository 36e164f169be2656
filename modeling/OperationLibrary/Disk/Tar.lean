import OperationLibrary.Disk.Gzip
import OperationLibrary.Text.Blank

/-!
Archives of blocks: every member has a block that describes it, and the blocks of its contents
follow. Some members only tell more about the next one, or about all that follow. What is unpacked
is trusted with nothing but files, directories and links that stay below the target; sparse files
are not read.
-/

namespace OperationLibrary.Tar

open Gzip (Stream)

def blockSize : Nat := 512

/-- The size of the blocks that so many bytes take up. -/
def inBlocks (size : Nat) : Nat :=
  (size + blockSize - 1) / blockSize * blockSize

/-! ### Headers -/

/-- The number that digits in base eight write. -/
def octal? (digits : List Char) : Option Nat :=
  digits.foldlM (fun n c => if '0' ≤ c ∧ c ≤ '7' then some (8 * n + (c.toNat - 48)) else none) 0

/-- A number in a header: digits up to a zero byte, or behind a mark the bytes of the number itself,
the highest one first. Another mark stands in front of negative numbers. -/
def number? (field : ByteArray) : Option Int :=
  let ofBytes := fun (bytes : List UInt8) => bytes.foldl (fun n byte => 256 * n + byte.toNat) 0
  match field.toList with
  | 0x80 :: rest => some (ofBytes rest : Nat)
  | 0xff :: rest => some ((ofBytes rest : Nat) - (1 <<< (8 * rest.length) : Nat))
  | _ => (octal? (Text.trimBlank (Bytes.text (Bytes.upToZero field))).toList).map Int.ofNat

/-- What a header says. -/
structure Header where
  name : String
  type : Char
  linkName : String
  size : Nat

/-- Why there is no member at a place: there are zeros, there is nothing, there is something else,
or the archive cannot be read that far. -/
inductive NoMember where
  | zeros
  | nothing
  | unreadable
  | stopped (fault : ArchiveFault)

namespace Header

def sumOf (bytes : ByteArray) : Nat :=
  bytes.foldl (fun sum byte => sum + byte.toNat) 0

/-- The sum of the bytes that count as negative numbers where these are known. -/
def excessOf (bytes : ByteArray) : Nat :=
  bytes.foldl (fun sum byte => if 0x80 ≤ byte then sum + 256 else sum) 0

/-- Whether a block has the checksum that it tells. The checksum itself counts as blanks; some
programs take bytes for numbers with a sign. -/
def hasChecksum (block : ByteArray) : Bool :=
  let others := block.extract 0 148 ++ block.extract 156 blockSize
  let sum : Int := 8 * 32 + sumOf others
  (number? (block.extract 148 156)).any fun checksum =>
    checksum == sum || checksum + excessOf others == sum

/-- The fields with numbers, by their places and widths; that of the size is among them. -/
def numberFields : List (Nat × Nat) :=
  [(100, 8), (108, 8), (116, 8), (124, 12), (136, 12), (329, 8), (337, 8)]

def text (block : ByteArray) (start width : Nat) : String :=
  Bytes.text (Bytes.upToZero (block.extract start (start + width)))

/-- The type of directories. -/
def directoryType : Char := '5'

def isDirectory (header : Header) : Bool :=
  header.type == directoryType

/-- Whether the contents are those of a file. -/
def isFile (header : Header) : Bool :=
  ['0', '\x00', '7'].contains header.type

/-- Types of members that have no contents. -/
def isBare (header : Header) : Bool :=
  ['1', '2', '3', '4', directoryType, '6'].contains header.type

def withoutSlashes (name : String) : String :=
  String.ofList (Text.dropEndWhile (· == '/') name.toList)

/-- What a block says. -/
def ofBlock (block : ByteArray) : Except NoMember Header := do
  if block.isEmpty then throw .nothing
  if block.size < blockSize then throw .unreadable
  if block.toList.all (· == 0) then throw .zeros
  if !hasChecksum block then throw .unreadable
  let numbers := numberFields.map fun field => number? (block.extract field.1 (field.1 + field.2))
  if !numbers.all Option.isSome then throw .unreadable
  let some (.ofNat size) := number? (block.extract 124 136) | throw .unreadable
  let given := text block 0 100
  let type := Char.ofNat (block.data.getD 156 0).toNat
  -- there were no types at first, and names of directories ended with a slash
  let type := if type = '\x00' ∧ given.endsWith "/" then directoryType else type
  let name := if type = directoryType then withoutSlashes given else given
  let front := text block 345 155
  let isOwn := ['L', 'K', 'S'].contains type
  return ⟨if front.isEmpty || isOwn then name else front ++ "/" ++ name, type,
    text block 157 100, size⟩

end Header

/-! ### Records about members -/

/-- What is told about members apart from their headers. -/
abbrev Records := List (String × String)

/-- The records in the contents of a member. Each one begins with its own length and ends with a
line feed. -/
def records? : Nat → List UInt8 → Option Records
  | 0, _ => some []
  | rounds + 1, bytes => do
    if bytes.isEmpty || bytes.head? == some 0 then return []
    let digits := bytes.takeWhile fun byte => 48 ≤ byte && byte ≤ 57
    let length := digits.foldl (fun n byte => 10 * n + (byte.toNat - 48)) 0
    let record := (bytes.take length).drop digits.length
    if digits.isEmpty || 20 < digits.length || length < 5 || bytes.length < length ||
      record.head? ≠ some 32 || record.getLast? ≠ some 10 then none
    let pair := (record.drop 1).dropLast
    let key := pair.takeWhile (· ≠ 61)
    if key.isEmpty || key.length = pair.length then none
    let shown := fun (part : List UInt8) => Bytes.text ⟨part.toArray⟩
    let rest ← records? rounds (bytes.drop length)
    return (shown key, shown (pair.drop (key.length + 1))) :: rest

/-- Changes a header to what records tell. The last one of a name counts. -/
def Header.tell (records : Records) (header : Header) : Header :=
  records.foldl (fun header record =>
    match record.1 with
    | "path" => { header with name := withoutSlashes record.2 }
    | "linkpath" => { header with linkName := record.2 }
    | "size" => { header with size := record.2.toNat?.getD 0 }
    | _ => header) header

/-! ### Members -/

/-- A member: what is known of it, the place of its contents, and that of the next header. -/
structure Member where
  header : Header
  start : Nat
  next : Nat

/-- The bytes in so many blocks from a place on, as far as there are any. -/
def blocks (stream : Stream) (start size : Nat) : Except NoMember ByteArray :=
  let stop := start + size
  match stream.fault with
  | some fault => if stop ≤ stream.data.size then .ok (stream.data.extract start stop)
    else .error (.stopped fault)
  | none => .ok (stream.data.extract start stop)

/-- What it means that another header has to follow and does not. -/
def NoMember.behindRecords : NoMember → NoMember
  | .stopped fault => .stopped fault
  | .zeros | .nothing | .unreadable => .stopped .broken

/-- The member at a place, with the records about all members so far. Headers that tell about the
next member take up a block, so as many rounds as there are blocks are enough. -/
def member (stream : Stream) : Nat → Nat → Records → Except NoMember (Member × Records)
  | 0, _, _ => .error .nothing
  | rounds + 1, place, general => do
    let header ← Header.ofBlock (← blocks stream place blockSize)
    let start := place + blockSize
    let behind := start + inBlocks header.size
    let following := fun general => (member stream rounds behind general).mapError
      NoMember.behindRecords
    match header.type with
    | 'L' | 'K' =>
      let told := Bytes.text (Bytes.upToZero (← blocks stream start (inBlocks header.size)))
      let (found, general) ← following general
      let named :=
        if header.type = 'K' then { found.header with linkName := told }
        else if found.header.isDirectory then
          { found.header with name := Header.withoutSlashes told }
        else { found.header with name := told }
      return ({ found with header := named }, general)
    | 'x' | 'g' | 'X' =>
      let told ← blocks stream start (inBlocks header.size)
      let some records := records? told.size told.toList | throw .unreadable
      if header.type = 'g' then following (general ++ records)
      else
        let (found, general) ← following general
        let changed := found.header.tell (general ++ records)
        let hasContents := changed.isFile || !changed.isBare
        let next :=
          if !(general ++ records).any (·.1 == "size") then found.next
          else if hasContents then found.start + inBlocks changed.size
          else found.start
        return (⟨changed, found.start, next⟩, general)
    | 'S' => throw (.stopped .broken)
    | _ =>
      let next := if header.isFile || !header.isBare then behind else start
      return (⟨header.tell general, start, next⟩, general)

/-! ### Unpacking -/

/-- The place that a path leads to, unless it leads out of the target. -/
def place? (path : String) : Option (List String) :=
  (Path.segments path).foldlM (fun here segment =>
    if segment ≠ ".." then some (Path.step here segment)
    else if here.isEmpty then none
    else some here.dropLast) []

/-- A link and the place that it leads to. -/
abbrev Link := List String × List String

/-- Puts copies in the places of links that lead to files, once all files are there. -/
def followLinks (links : List Link) (tree : FileTree) : FileTree :=
  links.foldl (fun tree link =>
    -- a link may lead to another one, but round in a circle it leads nowhere
    let target := links.foldl (fun target _ => (links.lookup target).getD target) link.2
    match tree.file? target with
    | some contents => tree.write link.1 contents
    | none => tree) tree

/-- Unpacks a member below the directory `root`, and gives the links so far. -/
def Member.unpack (root : String) (stream : Stream) (links : List Link) (found : Member) :
    Unpacking (List Link) := do
  let header := found.header
  let place ← Unpacking.orBroken (place? (String.ofList (header.name.toList.dropWhile (· == '/'))))
  if header.isFile then
    Unpacking.putFile root place .empty
    let some contents := Bytes.slice? stream.data found.start header.size
      | throw (stream.fault.getD .broken)
    Unpacking.putFile root place contents
    -- the blocks of the contents are read to their end
    if stream.data.size < found.next then throw (stream.fault.getD .broken)
    return links
  else if header.isDirectory then
    Unpacking.makeDirectory root place
    return links
  else if header.type = '1' ∨ header.type = '2' then
    if Path.isAbsolute header.linkName then throw .broken
    let isSymbolic := header.type = '2'
    let path := if isSymbolic then
      "/".intercalate (place.dropLast ++ [header.linkName]) else header.linkName
    let target ← Unpacking.orBroken (place? path)
    if isSymbolic then
      Unpacking.checkWay root place
      return (place, target) :: links.filter (·.1 ≠ place)
    else
      let contents ← Unpacking.orBroken ((← get).file? target)
      Unpacking.putFile root place contents
      return links
  else throw .broken

/-- Unpacks the members from a place on. Each one takes up a block at least. -/
def unpackFrom (root : String) (stream : Stream) (blockCount : Nat) :
    Nat → Nat → Records → List Link → Unpacking Unit
  | 0, _, _, links => modify (followLinks links)
  | rounds + 1, place, general, links =>
    match member stream blockCount place general with
    | .ok (found, general) => do
      let links ← found.unpack root stream links
      unpackFrom root stream blockCount rounds found.next general links
    | .error (.stopped fault) => throw (if place = 0 then .broken else fault)
    | .error .zeros => modify (followLinks links)
    | .error .nothing | .error .unreadable =>
      -- an archive begins with a member, but anything may follow the last one
      if place = 0 then throw .broken else modify (followLinks links)

/-- Unpacks a compressed archive below the directory `root`. -/
def unpack (root : String) (bytes : ByteArray) : Unpacked :=
  let stream := Gzip.read bytes
  let blockCount := stream.data.size / blockSize + 1
  (unpackFrom root stream blockCount blockCount 0 [] []).result

end OperationLibrary.Tar
