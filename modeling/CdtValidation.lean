import CdtValidation.Msgpack.Parse
import CdtValidation.Msgpack.Cursor
import CdtValidation.Backup.Verdict
import CdtValidation.Backup.Keys
import CdtValidation.Backup.DupKey
import CdtValidation.Backup.NestedKeys
import CdtValidation.Backup.ListFix
import CdtValidation.Backup.MapFix
import CdtValidation.Backup.Check
import CdtValidation.Backup.Logging
import CdtValidation.Backup.Padding
import CdtValidation.Backup.Jobs
import CdtValidation.Backup.Files
import CdtValidation.Backup.Scan
import CdtValidation.Backup.FilesInv
import CdtValidation.Backup.Links
import CdtValidation.Backup.Refinement
import CdtValidation.Backup.OnDisk
import CdtValidation.Backup.Summary
import CdtValidation.Restore.Retry
import CdtValidation.Restore.Header
import CdtValidation.Throttle
import CdtValidation.Restore.Pipeline
