import Intel8085.Assembly.Program

/-!
# Listings

As text a listing has two lines of heading and a line for each record that shows a block, with the
bytes of the block taken from the records behind it.
-/

set_option autoImplicit false

namespace Intel8085.Assembly

open Intel8085.Text

def fillRight (width : Nat) (text : String) : String :=
  text ++ String.ofList (List.replicate (width - text.length) ' ')

def fillLeft (width : Nat) (text : String) : String :=
  String.ofList (List.replicate (width - text.length) ' ') ++ text

def listingColumns (address bytes cycles states : String) : String :=
  fillRight 6 address ++ fillRight 10 bytes ++ fillLeft 2 cycles ++ fillLeft 4 states ++ "  "

def listingHeading : List String :=
  [listingColumns "ADDR" "BYTES" "M" "T" ++ "SOURCE", String.ofList (List.replicate 48 '-')]

def blockLine (record : ListingRecord) (records : List ListingRecord) : String :=
  let bytes := " ".intercalate ((records.take record.byteCount).map ListingRecord.hexCode)
  let label := if record.label.isEmpty then "" else record.label ++ ":"
  listingColumns record.address bytes (toString record.cycles) (toString record.states) ++
    fillRight 8 label ++ record.text

/-- The lines of blocks behind those already `found`, which are in reverse. -/
def blockLines (found : List String) : List ListingRecord → List String
  | [] => found.reverse
  | record :: rest =>
      if record.byteCount = 0 then blockLines found rest
      else blockLines (blockLine record (record :: rest) :: found) rest

def Program.listingText (program : Program) : String :=
  "\n".intercalate (listingHeading ++ blockLines [] program.listing)

end Intel8085.Assembly
