import Sift.Sql.Backend
import Sift.Table.Run

namespace Sift

def Database.backend (db : Database) (c : Catalog) : Backend Id SqlError Record := Sql.backend (Table.run db) c

end Sift
