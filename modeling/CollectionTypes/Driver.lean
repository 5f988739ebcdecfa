import CollectionTypes.Text.Basic

/-!
# The database driver's types

Generated declarations refer to three types of the database driver, which are imported from its
module. `types` lists them in alphabetical order.
-/

namespace CollectionTypes.Driver

def moduleName : Text := "fauna"

/-- A reference to a document whose content is not known. -/
def documentReference : Text := "DocumentReference"

def timeStub : Text := "TimeStub"

def dateStub : Text := "DateStub"

def types : List Text := [dateStub, documentReference, timeStub]

end CollectionTypes.Driver
