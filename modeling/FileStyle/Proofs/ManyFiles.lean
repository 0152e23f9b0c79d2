import FileStyle.Proofs.StoppedChecks
import FileStyle.Proofs.Written
import FileStyle.Proofs.WrittenFiles

/-!
# Checking many files

A check of many files is the checks of each of them, one after the other: nothing is carried
over from a file to the next. As text is told line by line, the text of the whole is that of
the parts in a row. What is printed and what is saved are the same report.
-/

namespace FileStyle

namespace Report

/-! ## Reports as text -/

end Report

namespace Command

variable {ε : Type} {h : Host ε} {t : Tree} {cwd : Location} {path : String}
  {paths : List String} {o : CheckOptions} {files : List FileReport} {format : ReportFormat}

/-! ## Files that can be checked -/

variable {saved : Option (Location × String)}

end Command
end FileStyle
