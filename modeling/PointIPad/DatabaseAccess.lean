import PointIPad.PGSQLKit

/-!
The queries of the app: the menu, the modifier options, and the prices and taxes
an order is charged.

Each query is the text the app formats, with the number of columns it selects,
and each method is what it reads from the answer. Strings are put between the
quotes of a literal as they are. The contents of the database are whatever the
connection answers: a price that is missing, or that a failed query would have
given, is `nil`.
-/

namespace PointIPad

/-- The database access object of a screen: its open connection. -/
structure DatabaseAccess where
  pgConn : PGSQLConnection

namespace DatabaseAccess

/-- A database that answers no query. -/
def offline : DatabaseAccess := ⟨⟨fun _ => none⟩⟩

/-- A database with one row for the queries whose texts start as given, the same
text in each of its cells. -/
def answering (answers : List (String × String)) : DatabaseAccess :=
  ⟨⟨fun q => (answers.find? fun a => a.1.toList.isPrefixOf q.text.toList).map
    fun a => [fun _ => some a.2]⟩⟩

variable (db : DatabaseAccess)

/-- What `%@` prints for a string that may be `nil`. -/
def stringOrNull (s : Option String) : String := s.getD "(null)"

/-! ### The menu -/

def classNamesQuery : String := "SELECT DISTINCT CLASS FROM TBL_ITEMS"

def subclassQuery (className : String) : String :=
  "SELECT DISTINCT SUBCLASS FROM TBL_ITEMS WHERE CLASS='" ++ className ++ "'"

def itemsOfClassQuery (className : String) : String :=
  "SELECT DISTINCT NAME FROM TBL_ITEMS WHERE CLASS='" ++ className ++ "'"

def itemsOfSubclassQuery (className : String) : String :=
  "SELECT DISTINCT NAME FROM TBL_ITEMS WHERE SUBCLASS='" ++ className ++ "'"

/-- The id of an item by its name, its class and, if there is one, its subclass. -/
def itemIdQuery (className : Option String) (subClassName : Option String) (itemName : String) :
    String :=
  match subClassName with
  | some sub =>
    "SELECT item_id from TBL_ITEMS WHERE CLASS='" ++ stringOrNull className
      ++ "' AND SUBCLASS='" ++ sub ++ "' AND NAME='" ++ itemName ++ "'"
  | none =>
    "SELECT item_id from TBL_ITEMS WHERE CLASS='" ++ stringOrNull className
      ++ "' AND NAME='" ++ itemName ++ "'"

def classNames : List String := db.pgConn.stringColumn ⟨classNamesQuery, 1⟩ 0

def subclassWhereClassIs (className : String) : List String :=
  db.pgConn.stringColumn ⟨subclassQuery className, 1⟩ 0

def itemsWhereClassIs (className : String) : List String :=
  db.pgConn.stringColumn ⟨itemsOfClassQuery className, 1⟩ 0

def itemsWhereSubclassIs (className : String) : List String :=
  db.pgConn.stringColumn ⟨itemsOfSubclassQuery className, 1⟩ 0

def itemIdWhereClassIs (className subClassName : Option String) (itemName : String) :
    Option NSNumber :=
  db.pgConn.numberField ⟨itemIdQuery className subClassName itemName, 1⟩ 0

/-! ### Modifier options -/

/-- The first row of a query of four columns as four strings; a field that is
`nil` is put in as the word `null`. -/
def createModsUsing (text : String) : List String :=
  [db.pgConn.stringField ⟨text, 4⟩ 0, db.pgConn.stringField ⟨text, 4⟩ 1,
    db.pgConn.stringField ⟨text, 4⟩ 2, db.pgConn.stringField ⟨text, 4⟩ 3].map
    (·.getD "null")

def hotnessOptionsModifierOne (itemId : Option NSNumber) : List String :=
  db.createModsUsing ("SELECT hotness, hotness_level, hotness_threshold, hotness_images"
    ++ " from TBL_ITEMS where item_id=" ++ descriptionOrNull itemId)

def quantityOptionsModifierTwo (itemId : Option NSNumber) : List String :=
  db.createModsUsing ("SELECT size, quantity_id, price, quantity_images"
    ++ " from TBL_QUANTITY where item_id=" ++ descriptionOrNull itemId)

def extraOptionsModifierThree (itemId : Option NSNumber) : List String :=
  db.createModsUsing ("SElECT extras, extras_id, price, extra_images"
    ++ " from TBL_EXTRAS where item_id=" ++ descriptionOrNull itemId)

def optionOptionsModifierFour (itemId : Option NSNumber) : List String :=
  db.createModsUsing ("SELECT options, options_level, option_threshold, option_images"
    ++ " from TBL_ITEMS where item_id=" ++ descriptionOrNull itemId)

theorem createModsUsing_ne_nil (text : String) : db.createModsUsing text ≠ [] := by
  simp [createModsUsing]

/-! ### Prices and taxes -/

def getLunchPriceUsing (itemId : NSNumber) : Option NSNumber :=
  db.pgConn.numberField
    ⟨"SELECT lunch_price from TBL_ITEMS where item_id=" ++ description itemId, 1⟩ 0

def getItemNameUsing (itemId : NSNumber) : Option String :=
  db.pgConn.stringField ⟨"SELECT name from TBL_ITEMS where item_id=" ++ description itemId, 1⟩ 0

def getModPriceExtra (itemId : NSNumber) (modName : String) : Option NSNumber :=
  db.pgConn.numberField
    ⟨"SELECT price from TBL_EXTRAS where item_id='" ++ description itemId
      ++ "' AND extras='" ++ modName ++ "'", 1⟩ 0

def getModPriceQuantity (itemId : NSNumber) (modName : String) : Option NSNumber :=
  db.pgConn.numberField
    ⟨"SELECT price from TBL_QUANTITY where item_id=" ++ description itemId
      ++ " AND size='" ++ modName ++ "'", 1⟩ 0

/-- The rate of a tax for an item that is charged it, 0 for one that is not. -/
def getTax (itemId : NSNumber) (taxNumber : String) : Option NSNumber :=
  if db.pgConn.stringField
      ⟨"SELECT taxed" ++ taxNumber ++ " from TBL_ITEMS where item_id=" ++ description itemId, 1⟩ 0
      = some "t" then
    db.pgConn.numberField ⟨"SELECT tax_rate from TBL_TAX WHERE tax_id=" ++ taxNumber, 1⟩ 0
  else some 0

def getTaxName (taxNumber : String) : Option String :=
  db.pgConn.stringField ⟨"SELECT tax_type FROM tbl_tax WHERE tax_id=" ++ taxNumber, 1⟩ 0

end DatabaseAccess

end PointIPad
